import ObjectDispatch.Options.Document
import ObjectDispatch.Session
import ObjectDispatch.Proofs.Evaluation
import ObjectDispatch.Proofs.Journal
import ObjectDispatch.Proofs.Reachability
import ObjectDispatch.Proofs.Frames
import ObjectDispatch.Proofs.Changes
import ObjectDispatch.Proofs.Definition
import ObjectDispatch.Proofs.Registration
import ObjectDispatch.Proofs.Linearization
import ObjectDispatch.Proofs.Searches
import ObjectDispatch.Proofs.Walks
import ObjectDispatch.Proofs.Heritage
import ObjectDispatch.Proofs.Naming
import ObjectDispatch.Proofs.Resolution
import ObjectDispatch.Proofs.OptionReports
import ObjectDispatch.Proofs.Succession
import ObjectDispatch.Proofs.Targets
import ObjectDispatch.Proofs.Course
import ObjectDispatch.Proofs.Conditions
import ObjectDispatch.Proofs.Performing
import ObjectDispatch.Proofs.Conformance
import ObjectDispatch.Proofs.History
import ObjectDispatch.Proofs.Construction
import ObjectDispatch.Proofs.Scopes
import ObjectDispatch.Proofs.EndedRuns
import ObjectDispatch.Proofs.Completion
import ObjectDispatch.Proofs.Creation
import ObjectDispatch.Proofs.Termination
import ObjectDispatch.Proofs.AccessNames
import ObjectDispatch.Proofs.Removal
import ObjectDispatch.Proofs.Moments
import ObjectDispatch.Proofs.ConstructionOrder
import ObjectDispatch.Proofs.Deletion
import ObjectDispatch.Proofs.Destruction
import ObjectDispatch.Proofs.ClassNames
import ObjectDispatch.Proofs.Calls
import ObjectDispatch.Proofs.Starts
import ObjectDispatch.Proofs.Protection
import ObjectDispatch.Proofs.Writing
import ObjectDispatch.Proofs.Privacy
import ObjectDispatch.Proofs.Installation
import ObjectDispatch.Proofs.LiveObjects
import ObjectDispatch.Proofs.LoaderCalls
import ObjectDispatch.Proofs.UnreachedLimit
import ObjectDispatch.Proofs.Configuration
import ObjectDispatch.Proofs.HookFailures
import ObjectDispatch.Proofs.Batching
import ObjectDispatch.Proofs.Chaining
import ObjectDispatch.Proofs.Acceptance
import ObjectDispatch.Proofs.ListText
import ObjectDispatch.Proofs.Candidates
import ObjectDispatch.Proofs.Introspection
import ObjectDispatch.Proofs.DestructorRuns
import ObjectDispatch.Proofs.LifecycleCalls
import ObjectDispatch.Proofs.Postorder
import ObjectDispatch.Proofs.Unchained
import ObjectDispatch.Proofs.ConstructorCalls
import ObjectDispatch.Proofs.Listings
import ObjectDispatch.Proofs.MemberNames
import ObjectDispatch.Proofs.DeclaredOptions
import ObjectDispatch.Proofs.Storage
import ObjectDispatch.Proofs.Bindings
