import ObjectDispatch.Proofs.Completion

/-!
# The constructors of a new object

Creating an object constructs the classes of its heritage.  A constructor that the creation
runs and that fails makes the creation fail, and so does one that is refused; so when the
creation succeeds, the body of each constructor has run once, and has ended with a value.
There is one exception: code that chains to a constructor can catch its failure.  Then its
class counts as constructed, the classes that it inherits from may not have been, and the
object need not be gone.

## Main definitions

* `RunsOnce` — the body of a constructor runs once for an object and ends with a value.

## Main results

* `Course.exists_of_create` — what happens when an object is created.
* `constructors_of_creation` — **each constructor has run once, and what has failed was
  caught where code had chained to it.**
* `exists_failed_constructor` — one can fail and the creation succeed.
-/

namespace ObjectDispatch

theorem Run.exists_of_bind_eq_value {α β : Type} {r : Run α} {f : α → Run β} {s u : State} {b : β}
    (h : (r >>= f) s = (.value b, u)) :
    ∃ a t, r s = (.value a, t) ∧ f a t = (.value b, u) := by
  rw [bind_apply] at h
  cases hr : r s with
  | mk out t =>
    rw [hr] at h
    cases out with
    | value a => exact ⟨a, t, rfl, h⟩
    | failure e => cases h
    | exhausted => cases h

/-- A look that ends with a value has found it. -/
theorem Run.eq_of_look_bind_eq_value {α β : Type} {g : World → Except DispatchError α}
    {f : α → Run β} {s u : State} {b : β} (h : (Run.look g >>= f) s = (.value b, u)) :
    ∃ a, g s.world = .ok a ∧ f a s = (.value b, u) := by
  cases hg : g s.world with
  | ok a =>
    rw [Run.look_bind_of_ok hg] at h
    exact ⟨a, rfl, h⟩
  | error e =>
    rw [Run.look_bind_of_error hg] at h
    cases h

/-- The number of a new object is the next one. -/
theorem eq_nextId_of_createObject {enter : Enter} {cls : ClassId} {name : String}
    {args : List Value} {s u : State} {id : ObjectId}
    (h : createObject enter cls name args s = (.value id, u)) : id = s.world.objects.nextId := by
  unfold createObject at h
  obtain ⟨c, t, hlook, h⟩ := Run.exists_of_bind_eq_value h
  obtain ⟨w, u', hworld, h⟩ := Run.exists_of_bind_eq_value h
  rw [Run.look_apply] at hlook
  obtain ⟨-, rfl⟩ := Prod.mk.inj hlook
  obtain ⟨hsame, -⟩ := Prod.mk.inj hworld
  cases hsame
  split at h
  · cases h
  · split at h
    · cases h
    · obtain ⟨_, t₁, -, h⟩ := Run.exists_of_bind_eq_value h
      obtain ⟨_, t₂, -, h⟩ := Run.exists_of_bind_eq_value h
      obtain ⟨_, t₃, -, h⟩ := Run.exists_of_bind_eq_value h
      obtain ⟨result, t₄, -, h⟩ := Run.exists_of_bind_eq_value h
      obtain ⟨_, t₅, -, h⟩ := Run.exists_of_bind_eq_value h
      cases result with
      | ok =>
        cases h
        rfl
      | error e =>
        obtain ⟨_, t₆, -, h⟩ := Run.exists_of_bind_eq_value h
        cases h

section

variable {cls : ClassId} {name : String} {w : World} {es : List Event}

/-- A new object is as it was made. -/
theorem World.Sound.eq_of_created (hw : w.Sound) {ob : Object}
    (hob : (w.after (.objectCreated name cls)).objects.get? w.objects.nextId = some ob) :
    ob = { id := w.objects.nextId, name, cls } := by
  rcases World.object_after hob with ⟨ob₀, hob₀, -⟩ | ⟨_, _, hevent, -, hob⟩
  · exact absurd (hw.allocated _ _ hob₀) (Nat.not_succ_le_self _)
  · cases hevent
    exact hob

/-- What happens to a new object before it is constructed. -/
def Registry.preparation (r : Registry) (o : ObjectId) (c : Class) : List Event :=
  r.initialValues o c.heritage ++ [.constructionBegun o]

/-- The world in which the construction of a new object begins. -/
def World.prepared (w : World) (cls : ClassId) (name : String) (c : Class) : World :=
  (w.after (.objectCreated name cls)).replay (w.registry.preparation w.objects.nextId c)

theorem Registry.isQuiet_of_mem_preparation {r : Registry} {o : ObjectId} {c : Class} {e : Event}
    (he : e ∈ r.preparation o c) : e.IsQuiet ∧ ∀ o' k, e ≠ .constructorMarked o' k := by
  rcases List.mem_append.mp he with he | he
  · obtain ⟨y, v, rfl⟩ := Registry.exists_of_mem_initialValues he
    exact ⟨trivial, nofun⟩
  · rw [List.mem_singleton.mp he]
    exact ⟨trivial, nofun⟩

/-- A new object has no marks before it is constructed. -/
theorem World.Sound.constructed_of_prepared (hw : w.Sound) {c : Class} {ob : Object}
    (hob : (w.prepared cls name c).objects.get? w.objects.nextId = some ob) :
    ob.constructed = [] := by
  rw [List.eq_nil_iff_forall_not_mem]
  intro k hk
  have hmarked : ob.isConstructed k = true := by rwa [Object.isConstructed, List.contains_iff_mem]
  rcases World.hasMark_of_replay hob hmarked with ⟨ob₁, hob₁, hbefore⟩ | hmark
  · rw [hw.eq_of_created hob₁] at hbefore
    cases hbefore
  · exact (Registry.isQuiet_of_mem_preparation hmark).2 _ _ rfl

/-- The creation of an object that succeeds constructs its class, after the object has
come to life and has been prepared. -/
theorem Course.exists_of_create (h : Course (.create cls name) w es (.value ())) :
    ∃ c es', w.registry.get? cls = some c ∧
      Course (.construct w.objects.nextId cls) (w.prepared cls name c) es' (.value ()) ∧
      es = .objectCreated name cls :: (w.registry.preparation w.objects.nextId c ++ es' ++
        [.constructionEnded w.objects.nextId]) := by
  cases h with
  | begins h h' =>
    cases h with
    | @create _ _ c hc hfree =>
      obtain ⟨es₁, es₂, rfl, hguarded, hdone⟩ := Course.exists_of_seq h'
      cases hdone with
      | begins h => cases h
      | done =>
        cases hguarded with
        | begins h => cases h
        | guarded hbuilding =>
          cases hbuilding with
          | begins h => cases h
          | @building _ _ _ es' _ hconstruct =>
            refine ⟨c, es', hc, ?_, ?_⟩
            · unfold World.prepared Registry.preparation
              rw [World.replay_append]
              exact hconstruct
            · simp [Registry.preparation, Outcome.closing]

end

/-- The body of the constructor of a class runs once for an object, and that run ends
with a value. -/
structure RunsOnce (k : ClassId) (o : ObjectId) (es : List Event) : Prop where
  starts : es.countP (·.starts .body k o) = 1
  succeeds : (endedRuns [] es).countP
    (fun r => r.start.starts .body k o && r.failure.isNone) = 1

/-- A body that has returned has run once, if its class was not marked before. -/
theorem BodyReturned.runsOnce {t : Task} {w : World} {es : List Event} {x : Outcome Unit}
    {o : ObjectId} {k : ClassId} (h : BodyReturned o k es) (hcourse : Course t w es x)
    (hx : x ≠ .exhausted) (hw : w.Sound) (ht : t.pending .body k o = 0) : RunsOnce k o es := by
  obtain ⟨run, hrun, hstart, hfailure⟩ := h
  have hended := (hcourse.balanced hx).starts .body k o
  -- each start follows a mark, of which there is one
  have hmost : es.countP (·.starts .body k o) ≤ 1 := by
    refine Nat.le_trans (hcourse.starts_le_marks hw) ?_
    rw [ht, Nat.add_zero]
    exact hcourse.marks_le_one hw
  have hreturned : 0 < (endedRuns [] es).countP
      (fun r => r.start.starts .body k o && r.failure.isNone) :=
    List.countP_pos_iff.mpr ⟨run, hrun, by simp [hstart, hfailure]⟩
  have hle : (endedRuns [] es).countP
      (fun r => r.start.starts .body k o && r.failure.isNone) ≤
        (endedRuns [] es).countP (·.start.starts .body k o) :=
    List.countP_mono_left fun r _ hr => (Bool.and_eq_true_iff.mp hr).1
  constructor <;> omega

section

variable {cls : ClassId} {name : String} {w : World} {es : List Event} {r : Registry}
  {opts : EngineOptions} {k : ClassId}

/-- **What becomes of the heritage of an object that is created**: each constructor runs
once, but for those of classes that are inherited by one whose construction has failed
where code has chained to it, and of that one. -/
theorem Course.runsOnce_of_create (h : Course (.create cls name) w es (.value ())) (hw : w.Sound)
    (hr : r.Built opts) (hgrows : (w.replay es).registry.GrowsTo r) (hk : r.IsA cls k)
    (hctor : r.DeclaresConstructor k) :
    RunsOnce k w.objects.nextId es ∨ ∃ d, r.IsA cls d ∧ r.IsA d k ∧
      IsCaught (FailsOnward w.objects.nextId (ConstructionFails w.objects.nextId d)) w es := by
  obtain ⟨c, es', -, hconstruct, hes⟩ := h.exists_of_create
  have hwhole : es = .objectCreated name cls :: w.registry.preparation w.objects.nextId c ++
      es' ++ [.constructionEnded w.objects.nextId] := hes
  have hadmitted := h.admitsAll
  rw [hwhole, World.admitsAll_append, World.admitsAll_append] at hadmitted
  have hsound : (w.prepared cls name c).Sound := hw.replay hadmitted.1.1
  have hcreated : w.objects.nextId.number ≤ (w.prepared cls name c).objects.created :=
    (World.leadsTo_replay (w.after (.objectCreated name cls)) _).created
  have hgrows' : ((w.prepared cls name c).replay es').registry.GrowsTo r := by
    rw [hwhole, World.replay_append, World.replay_append] at hgrows
    exact hgrows
  rcases hconstruct.completed_heritage hsound hcreated (fun _ => hw.constructed_of_prepared) hr
    hgrows' hk with hcompleted | ⟨d, hd, hdk, hcaught⟩
  · refine Or.inl (BodyReturned.runsOnce ?_ h nofun hw rfl)
    obtain ⟨run, hrun, hrest⟩ := hcompleted.body hctor
    have hquiet : Balanced (.objectCreated name cls ::
        w.registry.preparation w.objects.nextId c) :=
      .quiet trivial (balanced_of_isQuiet fun _ he =>
        (Registry.isQuiet_of_mem_preparation he).1)
    have hpart := (hquiet.endsWithin_right es').trans
      (endsWithin_left _ [.constructionEnded w.objects.nextId])
    refine ⟨run, ?_, hrest⟩
    rw [hwhole]
    exact hpart hrun
  · refine Or.inr ⟨d, hd, hdk, ?_⟩
    rw [hwhole]
    exact hcaught.part (w := w) (.objectCreated name cls :: _) _

/-- A constructor that has failed while the object was created was caught where code has
chained to it, if the object is there. -/
theorem Course.isCaught_of_create (h : Course (.create cls name) w es (.value ())) (hw : w.Sound)
    (hlive : ((w.replay es).objects.get? w.objects.nextId).isSome) {f : Frame} {a : Activity}
    (hobject : f.object = some w.objects.nextId) (ha : a.part?.isSome) (hfails : RunFails f a es) :
    IsCaught (FailsOnward w.objects.nextId fun _ run => FailedRun f a run) w es := by
  have hfailing := h.failing_of_runFails nofun hw hobject ha hfails
  refine (hfailing.handled_or_gone.resolve_right ?_).isCaught trivial
  rintro ⟨-, -, hgone⟩
  rw [hgone] at hlive
  cases hlive

end

/-- **What becomes of the constructors when an object is created**, as long as the object is
there.  The body of each constructor of the heritage has started once and has returned,
unless the construction of its class has failed, or that of one on the way to it, where code
has chained to a constructor and has caught the error; and any constructor that has failed
or was refused for the object is one whose error was caught there.  So it is with the
frames of the creation itself: each of them is left without an error, and none is
refused. -/
theorem constructors_of_creation {o : EngineOptions} {w : World} (hw : Session.Reachable o w)
    {loads frames : Nat} {cls : ClassId} {name : String} {args : List Value} {id : ObjectId}
    {s : State}
    (hrun : createObject (enterFrame (runCode loads frames)) cls name args { world := w } =
      (.value id, s))
    {ob : Object} (hob : s.world.objects.get? id = some ob) :
    (∀ k, s.world.registry.IsA ob.cls k → s.world.registry.DeclaresConstructor k →
      RunsOnce k id s.journal.reverse ∨
        ∃ d, s.world.registry.IsA ob.cls d ∧ s.world.registry.IsA d k ∧
          IsCaught (FailsOnward id (ConstructionFails id d)) w s.journal.reverse) ∧
    (∀ f a, f.object = some id → a.part?.isSome → RunFails f a s.journal.reverse →
      IsCaught (FailsOnward id fun _ run => FailedRun f a run) w s.journal.reverse) ∧
    OwnFramesSucceed w s.journal.reverse := by
  have hsound := hw.sound
  have hperforms := createObject_performs (s := { world := w })
    (conforms_evaluationLaw.runCode loads frames) hsound cls name args
  obtain ⟨hcourse, hworld⟩ := hperforms.journal
  have hid : id = w.objects.nextId := eq_nextId_of_createObject hrun
  rw [hrun] at hcourse hworld
  dsimp only at hcourse hworld
  subst hid
  have hcreate : Course (.create cls name) w s.journal.reverse (.value ()) := hcourse
  have hcls : ob.cls = cls := by
    obtain ⟨_, _, -, -, hes⟩ := hcreate.exists_of_create
    rw [hworld, hes] at hob
    have hleads := World.leadsTo_replay (w.after (.objectCreated name cls))
    obtain ⟨ob₁, hob₁, hcls, -⟩ := (hleads _).objects _ ob (Nat.le_refl _) hob
    rw [hsound.eq_of_created hob₁] at hcls
    exact hcls
  have hbuilt := (hcreate.sound hsound).built
  subst hcls
  rw [hworld] at hob ⊢
  refine ⟨fun k hk hctor => ?_, fun f a hobject ha hfails => ?_,
    hcreate.ownFramesSucceed rfl trivial⟩
  · exact hcreate.runsOnce_of_create hsound hbuilt (.refl _) hk hctor
  · exact hcreate.isCaught_of_create hsound (by rw [hob]; rfl) hobject ha hfails

/-- Defines a class whose constructor has the given body, and a class that inherits from
it and chains to that constructor in its initializer, where it catches a failure. -/
def catching (body : Expr) : Expr :=
  .sequence [
    .defineClass { name := "Base", members := [.ctor none body] },
    .defineClass
      { name := "Derived", inherits := ["Base"]
        members := [.ctor (some (.guarded (.chain []))) (.log (.const (.str "derived")))] }]

/-- The world with the two classes. -/
def catchingWorld (body : Expr) : World :=
  (Session.step 0 (World.initial {}) (catching body)).2.world

theorem catchingWorld_reachable (body : Expr)
    (hend : (Session.step 0 (World.initial {}) (catching body)).1 ≠ .exhausted) :
    Session.Reachable {} (catchingWorld body) :=
  Session.Between.reachable (.next (catching body) .start hend)

/-- The creation of an object of the second class. -/
def derivedRun (body : Expr) : Outcome ObjectId × State :=
  createObject (enterFrame (runCode 0 2)) ⟨1⟩ "d" [] { world := catchingWorld body }

theorem derivedRun_eq (body : Expr) (id : ObjectId)
    (hvalue : (derivedRun body).1 = .value id) :
    createObject (enterFrame (runCode 0 2)) ⟨1⟩ "d" [] { world := catchingWorld body } =
      (.value id, (derivedRun body).2) :=
  Prod.ext hvalue rfl

theorem derivedRun_follows (body : Expr) :
    (catchingWorld body).AdmitsAll (derivedRun body).2.journal.reverse ∧
      (derivedRun body).2.world =
        (catchingWorld body).replay (derivedRun body).2.journal.reverse := by
  have hlaw := follows_localLaw.toEvaluationLaw createObject_follows
  unfold derivedRun
  exact (createObject_follows (hlaw.runCode 0 2) ⟨1⟩ "d" []).journal (catchingWorld body)

/-- The first class, as the creation leaves it, with its constructor; and the new
object, whose heritage it is in. -/
theorem exists_base (body : Expr)
    (hctor : (((derivedRun body).2.world.registry.get? ⟨0⟩).bind
      (·.function? constructorName)).map (·.flags.isConstructor) = some true)
    (hheritage : ((derivedRun body).2.world.registry.get? ⟨1⟩).map (·.heritage) =
      some [⟨1⟩, ⟨0⟩])
    (hobject : ((derivedRun body).2.world.objects.get? ⟨1⟩).map (·.cls) = some ⟨1⟩) :
    ∃ ob c f, (derivedRun body).2.world.objects.get? ⟨1⟩ = some ob ∧
      (derivedRun body).2.world.registry.IsA ob.cls ⟨0⟩ ∧
      (derivedRun body).2.world.registry.get? ⟨0⟩ = some c ∧
      c.function? constructorName = some f ∧ f.flags.isConstructor = true := by
  obtain ⟨f, hf, hflag⟩ := Option.map_eq_some_iff.mp hctor
  obtain ⟨c, hc, hf⟩ := Option.bind_eq_some_iff.mp hf
  obtain ⟨d, hd, hmem⟩ := Option.map_eq_some_iff.mp hheritage
  obtain ⟨ob, hob, hcls⟩ := Option.map_eq_some_iff.mp hobject
  refine ⟨ob, c, f, hob, ⟨d, hcls ▸ hd, ?_⟩, hc, hf, hflag⟩
  rw [hmem]
  decide

/-- The body of a constructor that succeeds. -/
def logsBase : Expr := .log (.const (.str "base"))

/-- The body of a constructor that fails. -/
def raisesBase : Expr := .raise .script (.const (.str "no base"))

/-- The body of a constructor that has failed, as the events tell. -/
theorem exists_runFails_of_any {es : List Event} {k : ClassId} {o : ObjectId}
    (h : (endedRuns [] es).any
      (fun r => r.start.starts .body k o && r.failure.isSome) = true) :
    ∃ f a, f.object = some o ∧ a.part? = some (.body, k) ∧ RunFails f a es := by
  obtain ⟨⟨f, a, failure⟩, hended, hfails⟩ := List.any_eq_true.mp h
  simp only [EndedRun.start, Event.starts, Bool.and_eq_true, decide_eq_true_eq] at hfails
  obtain ⟨⟨hobject, hpart⟩, hfailure⟩ := hfails
  obtain ⟨e, rfl⟩ := Option.isSome_iff_exists.mp hfailure
  exact ⟨f, a, hobject, hpart, Or.inl ⟨e, hended⟩⟩

/-- Where nothing has failed, nothing has been caught. -/
theorem not_isCaught_of_all {w : World} {s : State} {o : ObjectId} {k : ClassId} {ob : Object}
    (hw : w.Sound)
    (hs : w.AdmitsAll s.journal.reverse ∧ s.world = w.replay s.journal.reverse)
    (hob : s.world.objects.get? o = some ob)
    (hnone : s.journal.reverse.all (!·.isFailure) = true) :
    ¬ IsCaught (FailsOnward o (ConstructionFails o k)) w s.journal.reverse := by
  obtain ⟨hadmitted, hworld⟩ := hs
  rw [hworld] at hob
  exact fun hcaught => not_failsOnward_of_all hw hadmitted (by rw [hob]; rfl) hnone
    (hcaught.holds persists_failsOnward)

/-- Where the constructor to which the initializer has chained returns, it has run once, and
where it fails its failure has been caught. -/
theorem constructors_of_derived :
    RunsOnce ⟨0⟩ ⟨1⟩ (derivedRun logsBase).2.journal.reverse ∧
      ∃ f a, a.part? = some (.body, ⟨0⟩) ∧
        IsCaught (FailsOnward ⟨1⟩ fun _ run => FailedRun f a run) (catchingWorld raisesBase)
          (derivedRun raisesBase).2.journal.reverse := by
  constructor
  · have hrun := derivedRun_eq logsBase ⟨1⟩ (by decide +kernel)
    have hreachable := catchingWorld_reachable logsBase (by decide +kernel)
    obtain ⟨ob, c, f, hob, hk, hc, hf, hctor⟩ := exists_base logsBase (by decide +kernel)
      (by decide +kernel) (by decide +kernel)
    have hcreation := constructors_of_creation hreachable hrun hob
    refine (hcreation.1 ⟨0⟩ hk ⟨c, f, hc, hf, hctor⟩).resolve_right ?_
    rintro ⟨d, -, -, hcaught⟩
    exact not_isCaught_of_all hreachable.sound (derivedRun_follows logsBase) hob
      (by decide +kernel) hcaught
  · have hrun := derivedRun_eq raisesBase ⟨1⟩ (by decide +kernel)
    have hreachable := catchingWorld_reachable raisesBase (by decide +kernel)
    obtain ⟨ob, _, _, hob, -⟩ := exists_base raisesBase (by decide +kernel)
      (by decide +kernel) (by decide +kernel)
    have hfails : (endedRuns [] (derivedRun raisesBase).2.journal.reverse).any (fun r =>
        r.start.starts .body ⟨0⟩ ⟨1⟩ && r.failure.isSome) = true := by decide +kernel
    obtain ⟨f, a, hobject, hpart, hfails⟩ := exists_runFails_of_any hfails
    have hcreation := constructors_of_creation hreachable hrun hob
    exact ⟨f, a, hpart, hcreation.2.1 f a hobject (by rw [hpart]; rfl) hfails⟩

/-- **A constructor can fail and the creation succeed**: its failure has been caught,
its class counts as constructed all the same, and the creation goes on without it. -/
theorem exists_failed_constructor :
    ¬ ∀ (o : EngineOptions) (w : World), Session.Reachable o w →
      ∀ (loads frames : Nat) (cls : ClassId) (name : String) (args : List Value) (id : ObjectId)
        (s : State), createObject (enterFrame (runCode loads frames)) cls name args
          { world := w } = (.value id, s) →
      ∀ ob, s.world.objects.get? id = some ob → ∀ k c f, s.world.registry.IsA ob.cls k →
        s.world.registry.get? k = some c → c.function? constructorName = some f →
        f.flags.isConstructor = true →
        RunsOnce k id s.journal.reverse := by
  intro h
  have hrun := derivedRun_eq raisesBase ⟨1⟩ (by decide +kernel)
  obtain ⟨ob, c, f, hob, hk, hc, hf, hctor⟩ := exists_base raisesBase (by decide +kernel)
    (by decide +kernel) (by decide +kernel)
  have hreachable := catchingWorld_reachable raisesBase (by decide +kernel)
  have honce := h {} (catchingWorld raisesBase) hreachable 0 2 ⟨1⟩ "d" [] ⟨1⟩
    (derivedRun raisesBase).2 hrun ob hob ⟨0⟩ c f hk hc hf hctor
  have hnone : (endedRuns [] (derivedRun raisesBase).2.journal.reverse).countP
      (fun r => r.start.starts .body ⟨0⟩ ⟨1⟩ && r.failure.isNone) = 0 := by decide +kernel
  rw [honce.succeeds] at hnone
  cases hnone

end ObjectDispatch
