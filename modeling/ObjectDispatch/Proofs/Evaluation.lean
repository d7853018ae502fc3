import ObjectDispatch.Proofs.Congruence

/-!
# Properties of every evaluation

Code can nest in any order: a hook may create an object whose constructor chains,
defines a class and deletes another object.  What is said of all evaluation is
therefore said once for each operation, and carried through expressions, frames
and loader calls.

A property of runs that survives putting runs together is *compositional*, and a
*law* when runs that do not end have it as well.  It is a relation of runs to
themselves, so the inductions are those of evaluations side by side.  A property that
every operation has is a property of every expression, for a given way of entering
frames (`OperationLaw.eval`); a law that the operations obey whatever runs in their
frames, as long as that obeys it too, is obeyed by every evaluation
(`EvaluationLaw.evaluate`).  Mostly no more is needed than that single events and
frames have the property (`FrameLaw`, `LocalLaw`); only the creation of an object
and the definition of a class are then left to look at.  Where it matters which
variables are written, the operations that write them are left as well (`CallLaw`).

## Main definitions

* `Run.Compositional`, `Run.Law` — properties that sequencing and catching keep.
* `OperationLaw` — the properties of all operations that enter frames in one way.
* `EvaluationLaw` — the laws that every operation obeys.
* `AssignmentLaw`, `CallLaw`, `FrameLaw`, `LocalLaw` — the properties that single events
  and frames have.

## Main results

* `OperationLaw.eval` — what holds of the operations holds of expressions.
* `EvaluationLaw.evaluate` — **every evaluation obeys an evaluation law.**
* `CallLaw.toOperationLaw`, `FrameLaw.toOperationLaw` — what holds of events and
  frames holds of the operations.
-/

namespace ObjectDispatch

/-- A property of runs that survives putting runs together. -/
structure Run.Compositional (P : ∀ {α : Type}, Run α → Prop) : Prop where
  pure {α : Type} (a : α) : P (pure a : Run α)
  fail {α : Type} (e : DispatchError) : P (Run.fail e : Run α)
  world : P Run.world
  look {α : Type} (f : World → Except DispatchError α) : P (Run.look f)
  bind {α β : Type} {r : Run α} {f : α → Run β} : P r → (∀ a, P (f a)) → P (r >>= f)
  attempt {α : Type} {r : Run α} : P r → P (Run.attempt r)

/-- A compositional property that runs which do not end have as well. -/
structure Run.Law (P : ∀ {α : Type}, Run α → Prop) : Prop extends Run.Compositional P where
  exhaust {α : Type} : P (Run.exhaust : Run α)

namespace Run.Compositional

variable {P : ∀ {α : Type}, Run α → Prop} (h : Run.Compositional P)

include h

/-- A property of runs relates them to themselves. -/
theorem congruence : Run.Congruence fun r _ => P r where
  pure := h.pure
  fail := h.fail
  look _ := h.look _
  world _ hf := h.bind h.world hf
  bind := h.bind
  attempt := h.attempt

theorem answer {α : Type} (a : Except DispatchError α) : P (Run.answer a) :=
  h.congruence.answer a

theorem forM_of_mem {α : Type} {f : α → Run Unit} {as : List α} (hf : ∀ a ∈ as, P (f a)) :
    P (as.forM f) :=
  @Run.Congruence.forM _ h.congruence α f f as hf

theorem forM {α : Type} {f : α → Run Unit} (hf : ∀ a, P (f a)) (as : List α) :
    P (as.forM f) :=
  h.forM_of_mem fun a _ => hf a

variable (hlogged : ∀ v, P (Run.happen (.logged v)))
variable {evaluate : Evaluate} (hevaluate : ∀ e args, P (evaluate e args))

include hlogged hevaluate

theorem delegated (c : Class) (o : ObjectId) (method : String) (args : List Value) :
    P (delegated evaluate c o method args) :=
  @Run.Congruence.delegated _ h.congruence hlogged evaluate evaluate hevaluate c o method args

theorem load (loader : ClassLoader) (name : String) : P (load evaluate loader name) :=
  @Run.Congruence.load _ h.congruence hlogged evaluate evaluate hevaluate loader name

theorem resolveClass (name : String) (autoload : Bool) :
    P (resolveClass evaluate name autoload) :=
  @Run.Congruence.resolveClass _ h.congruence hlogged evaluate evaluate hevaluate name autoload

end Run.Compositional

/-- A frame is refused where there is no room for it.  Otherwise the code runs in
it, and the frame is left again when the code has ended. -/
theorem enterFrame_apply (run : Code → List Value → Run Value) (f : Frame) (a : Activity)
    (args : List Value) (s : State) :
    enterFrame run f a args s =
      if s.world.stack.limit ≤ s.world.stack.depth then
        (.failure (.usage .tooDeep), s.after (.refused f a))
      else
        match run a.code args (s.after (.entered f a)) with
        | (.value v, t) => (.value v, t.after (.left none))
        | (.failure e, t) => (.failure e, t.after (.left (some e)))
        | (.exhausted, t) => (.exhausted, t) := by
  unfold enterFrame
  rw [Run.bind_apply, Run.world_apply]
  simp only
  unfold CallStack.push
  split
  · rfl
  · simp only [Run.bind_apply, Run.happen_apply, Run.attempt_apply]
    cases run a.code args (s.after (.entered f a)) with
    | mk o t => cases o <;> rfl

/-- A property that every operation of the language has, where frames are entered
by `enter`. -/
structure OperationLaw (enter : Enter) (P : ∀ {α : Type}, Run α → Prop) : Prop
    extends Run.Compositional P where
  logged (v : Value) : P (Run.happen (.logged v))
  loaderInstalled (l : ClassLoader) : P (Run.happen (.loaderInstalled l))
  delegateInstalled (e : Expr) : P (Run.happen (.delegateInstalled e))
  setVariable (n : String) (v : Value) : P (setVariable n v)
  unsetVariable (n : String) : P (unsetVariable n)
  defineClass (d : ClassDecl Expr) : P (defineClass d)
  bindComponent (o : ObjectId) (n : String) (t : ObjectId) : P (bindComponent o n t)
  invoke (o : ObjectId) (n : String) (args : List Value) : P (invoke enter o n args)
  invokeProc (c : ClassId) (n : String) (args : List Value) : P (invokeProc enter c n args)
  evalWithin (c : ClassId) (o : Option ObjectId) (e : Expr) (args : List Value) :
    P (evalWithin enter c o e args)
  chain (args : List Value) : P (chain enter args)
  createObject (c : ClassId) (n : String) (args : List Value) : P (createObject enter c n args)
  deleteObject (o : ObjectId) : P (deleteObject enter o)
  configure {evaluate : Evaluate} (hevaluate : ∀ e args, P (evaluate e args))
    (args : List Value) : P (configure enter evaluate args)

namespace OperationLaw

variable {P : ∀ {α : Type}, Run α → Prop} {enter : Enter} (h : OperationLaw enter P)

include h

theorem congruence : OperationCongruence enter enter fun r _ => P r where
  toCongruence := h.toCompositional.congruence
  logged := h.logged
  loaderInstalled := h.loaderInstalled
  delegateInstalled := h.delegateInstalled
  setVariable := h.setVariable
  unsetVariable := h.unsetVariable
  defineClass := h.defineClass
  bindComponent := h.bindComponent
  invoke := h.invoke
  invokeProc := h.invokeProc
  evalWithin := h.evalWithin
  chain := h.chain
  createObject := h.createObject
  deleteObject := h.deleteObject
  configure := h.configure

theorem runBuiltin {evaluate : Evaluate} (hevaluate : ∀ e args, P (evaluate e args))
    (args : List Value) (b : Builtin) : P (runBuiltin enter evaluate args b) :=
  @OperationCongruence.runBuiltin _ enter enter h.congruence evaluate evaluate hevaluate args b

theorem eval {consult : Evaluate} (hresolve : ∀ n a, P (resolveClass consult n a)) (e : Expr)
    (args : List Value) : P (e.eval enter consult args) :=
  @OperationCongruence.eval _ enter enter h.congruence consult consult hresolve e args

theorem evaluateLoading
    (hresolve : ∀ n a, P (ObjectDispatch.resolveClass (fun _ _ => Run.exhaust) n a))
    (loads : Nat) (e : Expr) (args : List Value) : P (evaluateLoading enter loads e args) :=
  h.congruence.evaluateLoading hresolve loads e args

end OperationLaw

/-- A law that every operation of the language obeys, whatever runs in the frames
it enters, as long as that obeys the law too. -/
structure EvaluationLaw (P : ∀ {α : Type}, Run α → Prop) : Prop extends Run.Law P where
  operations {run : Code → List Value → Run Value} (hrun : ∀ c args, P (run c args)) :
    OperationLaw (enterFrame run) P

namespace EvaluationLaw

variable {P : ∀ {α : Type}, Run α → Prop} (h : EvaluationLaw P)

include h

theorem evaluateLoading {run : Code → List Value → Run Value} (hrun : ∀ c args, P (run c args))
    (loads : Nat) (e : Expr) (args : List Value) :
    P (evaluateLoading (enterFrame run) loads e args) := by
  have hops := h.operations hrun
  exact hops.evaluateLoading (h.resolveClass hops.logged fun _ _ => h.exhaust) loads e args

/-- What runs in a frame enters frames in turn: an induction on how many are
granted. -/
theorem runCode (loads frames : Nat) (c : Code) (args : List Value) :
    P (runCode loads frames c args) := by
  induction frames generalizing c args with
  | zero => exact h.exhaust
  | succ frames ih =>
    cases c with
    | script e => exact h.evaluateLoading ih loads e args
    | builtin b => exact (h.operations ih).runBuiltin (h.evaluateLoading ih loads) args b

/-- **Every evaluation obeys an evaluation law.** -/
theorem evaluate (loads frames : Nat) (e : Expr) (args : List Value) :
    P (evaluate loads frames e args) :=
  h.evaluateLoading (h.runCode loads frames) loads e args

end EvaluationLaw

/-! ### Local laws -/

/-- A property that the changes to variables have. -/
structure AssignmentLaw (P : ∀ {α : Type}, Run α → Prop) : Prop
    extends Run.Compositional P where
  assigned (o : ObjectId) (x : String) (v : Value) : P (Run.happen (.assigned o x v))
  cleared (o : ObjectId) (x : String) : P (Run.happen (.cleared o x))

namespace AssignmentLaw

variable {P : ∀ {α : Type}, Run α → Prop} (h : AssignmentLaw P)

include h

theorem congruence : AssignmentCongruence fun r _ => P r where
  toCongruence := h.toCompositional.congruence
  assigned := h.assigned
  cleared := h.cleared

theorem setVariable (n : String) (v : Value) : P (setVariable n v) :=
  h.congruence.setVariable n v

theorem unsetVariable (n : String) : P (unsetVariable n) :=
  h.congruence.unsetVariable n

theorem bindComponent (o : ObjectId) (n : String) (t : ObjectId) : P (bindComponent o n t) :=
  h.congruence.bindComponent o n t

theorem initializeVariables (o : ObjectId) (cs : List ClassId) :
    P (initializeVariables o cs) :=
  h.congruence.initializeVariables o cs

end AssignmentLaw

/-- A property that every local event has unless it writes a variable, every definition
of a class, and everything that enters one frame by `enter`. -/
structure CallLaw (enter : Enter) (P : ∀ {α : Type}, Run α → Prop) : Prop
    extends Run.Compositional P where
  happen (e : Event) : e.IsLocal → e.write? = none → P (Run.happen e)
  defineClass (d : ClassDecl Expr) : P (defineClass d)
  enterFrame (f : Frame) (a : Activity) (args : List Value) : P (enter f a args)

namespace CallLaw

variable {P : ∀ {α : Type}, Run α → Prop} {enter : Enter} (h : CallLaw enter P)

include h

theorem congruence : CallCongruence enter enter fun r _ => P r where
  toCongruence := h.toCompositional.congruence
  happen := h.happen
  defineClass := h.defineClass
  enterFrame := h.enterFrame

theorem removeObject (o : ObjectId) : P (removeObject o) :=
  h.congruence.removeObject o

theorem callMember (f : MemberFunction) (o : Option ObjectId) (n : String) (args : List Value) :
    P (callMember enter f o n args) :=
  h.congruence.callMember f o n args

theorem runInitializer (f : MemberFunction) (o : ObjectId) (args : List Value) :
    P (runInitializer enter f o args) :=
  h.congruence.runInitializer f o args

/-- **What holds of calls holds of the operations**, as soon as it holds of those that
write variables, of constructors and of the creation of objects. -/
theorem toOperationLaw (hset : ∀ n v, P (setVariable n v)) (hunset : ∀ n, P (unsetVariable n))
    (hcomponent : ∀ o n t, P (bindComponent o n t))
    (hctor : ∀ f o args, P (runConstructor enter f o args))
    (hcreate : ∀ c n args, P (createObject enter c n args))
    (hconfigure : ∀ {evaluate : Evaluate}, (∀ e args, P (evaluate e args)) →
      ∀ args, P (configure enter evaluate args)) : OperationLaw enter P where
  toCompositional := h.toCompositional
  logged _ := h.happen _ trivial rfl
  loaderInstalled _ := h.happen _ trivial rfl
  delegateInstalled _ := h.happen _ trivial rfl
  setVariable := hset
  unsetVariable := hunset
  defineClass := h.defineClass
  bindComponent := hcomponent
  invoke := h.congruence.invoke
  invokeProc := h.congruence.invokeProc
  evalWithin := h.congruence.evalWithin
  chain := h.congruence.chain hctor
  createObject := hcreate
  deleteObject := h.congruence.deleteObject
  configure := hconfigure

theorem constructClass (hexhaust : P (Run.exhaust : Run Unit)) (o : ObjectId) (depth : Nat)
    (c : ClassId) (args : List Value) : P (constructClass enter o depth c args) :=
  h.congruence.constructClass hexhaust o depth c args

theorem runConstructor (hexhaust : P (Run.exhaust : Run Unit)) (f : MemberFunction)
    (o : ObjectId) (args : List Value) : P (runConstructor enter f o args) :=
  h.congruence.runConstructor hexhaust f o args

end CallLaw

/-- A property that every local event has, every definition of a class, and
everything that enters one frame by `enter`. -/
structure FrameLaw (enter : Enter) (P : ∀ {α : Type}, Run α → Prop) : Prop
    extends Run.Compositional P where
  happen (e : Event) : e.IsLocal → P (Run.happen e)
  defineClass (d : ClassDecl Expr) : P (defineClass d)
  enterFrame (f : Frame) (a : Activity) (args : List Value) : P (enter f a args)

namespace FrameLaw

variable {P : ∀ {α : Type}, Run α → Prop} {enter : Enter} (h : FrameLaw enter P)

include h

theorem congruence : FrameCongruence enter enter fun r _ => P r where
  toCongruence := h.toCompositional.congruence
  happen := h.happen
  defineClass := h.defineClass
  enterFrame := h.enterFrame

theorem callLaw : CallLaw enter P where
  toCompositional := h.toCompositional
  happen e he _ := h.happen e he
  defineClass := h.defineClass
  enterFrame := h.enterFrame

theorem assignments : AssignmentLaw P where
  toCompositional := h.toCompositional
  assigned _ _ _ := h.happen _ trivial
  cleared _ _ := h.happen _ trivial

theorem assignOptions (c : Class) (o : ObjectId) (args : List Value) :
    P (assignOptions enter c o args) :=
  @Run.Congruence.assignOptions _ h.toCompositional.congruence enter enter
    h.congruence.assignOption c o args

/-- **What holds of events and frames holds of the operations**, as soon as it
holds of constructors and of the creation of objects. -/
theorem toOperationLaw (hctor : ∀ f o args, P (runConstructor enter f o args))
    (hcreate : ∀ c n args, P (createObject enter c n args)) : OperationLaw enter P :=
  h.callLaw.toOperationLaw h.assignments.setVariable h.assignments.unsetVariable
    h.assignments.bindComponent hctor hcreate fun {evaluate} hevaluate =>
      @Run.Congruence.configure _ h.toCompositional.congruence enter enter
        h.congruence.assignOption (fun _ => h.happen _ trivial) evaluate evaluate hevaluate

end FrameLaw

/-- A law that every local event obeys, every definition of a class, and every
frame, whatever runs in it, as long as that obeys the law too. -/
structure LocalLaw (P : ∀ {α : Type}, Run α → Prop) : Prop extends Run.Law P where
  happen (e : Event) : e.IsLocal → P (Run.happen e)
  defineClass (d : ClassDecl Expr) : P (defineClass d)
  enterFrame {run : Code → List Value → Run Value} (hrun : ∀ c args, P (run c args))
    (f : Frame) (a : Activity) (args : List Value) : P (enterFrame run f a args)

namespace LocalLaw

variable {P : ∀ {α : Type}, Run α → Prop} (h : LocalLaw P)
variable {run : Code → List Value → Run Value} (hrun : ∀ c args, P (run c args))

include h hrun

theorem frameLaw : FrameLaw (ObjectDispatch.enterFrame run) P where
  toCompositional := h.toCompositional
  happen := h.happen
  defineClass := h.defineClass
  enterFrame := h.enterFrame hrun

theorem constructClass (o : ObjectId) (depth : Nat) (c : ClassId) (args : List Value) :
    P (constructClass (ObjectDispatch.enterFrame run) o depth c args) :=
  (h.frameLaw hrun).callLaw.constructClass h.exhaust o depth c args

theorem runConstructor (f : MemberFunction) (o : ObjectId) (args : List Value) :
    P (runConstructor (ObjectDispatch.enterFrame run) f o args) :=
  (h.frameLaw hrun).callLaw.runConstructor h.exhaust f o args

omit hrun in
/-- **The operations obey a local law**, as soon as the creation of objects
does. -/
theorem toEvaluationLaw
    (hcreate : ∀ {run : Code → List Value → Run Value}, (∀ c args, P (run c args)) →
      ∀ c n args, P (createObject (ObjectDispatch.enterFrame run) c n args)) :
    EvaluationLaw P where
  toLaw := h.toLaw
  operations hrun := (h.frameLaw hrun).toOperationLaw (h.runConstructor hrun) (hcreate hrun)

end LocalLaw

end ObjectDispatch
