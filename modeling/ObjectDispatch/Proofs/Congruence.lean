import ObjectDispatch.Eval

/-!
# Two evaluations side by side

Whatever leads out of code, entering frames and asking the class loader, is an argument
of its evaluation.  Where two ways to do that give related runs, so do the evaluations
of all code, for every relation that sequencing and catching keep.  This is shown once
for each operation and carried through expressions here; a property of single runs is
the case in which both sides are the same.

Nothing that evaluation reads of the world depends on the limit on frames, only the
frames themselves do.  So the relation need not be kept by a look at the limit.

## Main definitions

* `World.withLimit`, `World.Blind` — what is read of a world without its limit.
* `Run.Congruence` — relations that sequencing and catching keep.
* `AssignmentCongruence`, `CallCongruence`, `OperationCongruence` — relations that
  events, calls and operations keep, where frames are entered in two ways.

## Main results

* `CallCongruence.chain`, `CallCongruence.constructClass`, … — related calls make related
  operations.
* `OperationCongruence.eval` — **related operations make related evaluations.**
-/

namespace ObjectDispatch

/-! ### The limit on frames -/

namespace World

/-- The world with another limit on frames. -/
def withLimit (w : World) (m : Nat) : World :=
  { w with
    options := { w.options with maxCallDepth := m }
    stack := { w.stack with limit := m } }

/-- What is read of a world does not depend on its limit on frames. -/
def Blind {α : Type} (f : World → α) : Prop := ∀ w m, f (w.withLimit m) = f w

theorem blind_firstDefined (n : String) (ids : List ClassId) :
    Blind (firstDefined · n ids) := by
  intro w m
  induction ids with
  | nil => rfl
  | cons id ids ih =>
    have hclass : (w.withLimit m).classAt id = w.classAt id := rfl
    dsimp only at ih ⊢
    rw [firstDefined, firstDefined, hclass, ih]

theorem blind_chainTarget : Blind chainTarget := by
  intro w m
  have hdefined (n : String) (ids : List ClassId) :
      firstDefined (w.withLimit m) n ids = firstDefined w n ids :=
    blind_firstDefined n ids w m
  unfold chainTarget
  simp only [hdefined]
  rfl

theorem blind_firstComponent (n : String) (ids : List ClassId) :
    Blind (firstComponent · n ids) := by
  intro w m
  induction ids with
  | nil => rfl
  | cons id ids ih =>
    have hclass : (w.withLimit m).classAt id = w.classAt id := rfl
    dsimp only at ih ⊢
    rw [firstComponent, firstComponent, hclass, ih]

theorem blind_component (o : ObjectId) (n : String) : Blind (World.component · o n) := by
  intro w m
  have hcomponent (ids : List ClassId) :
      firstComponent (w.withLimit m) n ids = firstComponent w n ids :=
    blind_firstComponent n ids w m
  unfold World.component
  simp only [hcomponent]
  rfl

theorem blind_reportOptions (c : Class) (o : ObjectId) (vs : List Variable) :
    Blind (World.reportOptions · c o vs) := by
  intro w m
  induction vs with
  | nil => rfl
  | cons v vs ih =>
    have hreport (entry : VarLookup) :
        (w.withLimit m).reportOption o entry = w.reportOption o entry := rfl
    dsimp only at ih ⊢
    rw [World.reportOptions, World.reportOptions, ih]
    simp only [hreport]

theorem blind_listOptions (c : Class) (o : ObjectId) : Blind (World.listOptions · c o) := by
  intro w m
  have hreports (vs : List Variable) :
      (w.withLimit m).reportOptions c o vs = w.reportOptions c o vs :=
    blind_reportOptions c o vs w m
  unfold World.listOptions
  simp only [hreports]
  rfl

end World

theorem Inquiry.blind_answer (q : Inquiry) : World.Blind q.answer := by
  intro w m
  cases q with
  | chainTarget =>
    dsimp only [Inquiry.answer]
    rw [World.blind_chainTarget w m]
  | _ => rfl

theorem ObjectNameInquiry.blind_answer (q : ObjectNameInquiry) (o : ObjectId) (n : String) :
    World.Blind (q.answer · o n) := by
  intro w m
  cases q with
  | component =>
    have hcomponent : (w.withLimit m).component o n = w.component o n :=
      World.blind_component o n w m
    dsimp only [ObjectNameInquiry.answer, World.boundTo]
    rw [hcomponent]
    rfl
  | report => rfl

/-! ### Relations between runs -/

/-- A relation between runs that putting runs together keeps, where what is read of the
world does not depend on the limit on frames. -/
structure Run.Congruence (R : ∀ {α : Type}, Run α → Run α → Prop) : Prop where
  pure {α : Type} (a : α) : R (pure a : Run α) (pure a)
  fail {α : Type} (e : DispatchError) : R (Run.fail e : Run α) (Run.fail e)
  look {α : Type} {f : World → Except DispatchError α} : World.Blind f →
    R (Run.look f) (Run.look f)
  world {α : Type} {f f' : World → Run α} : World.Blind f' → (∀ w, R (f w) (f' w)) →
    R (Run.world >>= f) (Run.world >>= f')
  bind {α β : Type} {r r' : Run α} {f f' : α → Run β} : R r r' → (∀ a, R (f a) (f' a)) →
    R (r >>= f) (r' >>= f')
  attempt {α : Type} {r r' : Run α} : R r r' → R (Run.attempt r) (Run.attempt r')

namespace Run.Congruence

variable {R : ∀ {α : Type}, Run α → Run α → Prop} (h : Run.Congruence R)

include h

theorem answer {α : Type} (a : Except DispatchError α) : R (Run.answer a) (Run.answer a) := by
  cases a with
  | ok a => exact h.pure a
  | error e => exact h.fail e

theorem forM {α : Type} {f f' : α → Run Unit} {as : List α}
    (hf : ∀ a ∈ as, R (f a) (f' a)) : R (as.forM f) (as.forM f') := by
  induction as with
  | nil => exact h.pure ()
  | cons a as ih =>
    rw [List.forall_mem_cons] at hf
    exact h.bind hf.1 fun _ => ih hf.2

/-! ### Collaborators and builtin methods -/

section Collaborators

variable (hlogged : ∀ v, R (Run.happen (.logged v)) (Run.happen (.logged v)))
variable {evaluate evaluate' : Evaluate}
variable (hevaluate : ∀ e args, R (evaluate e args) (evaluate' e args))

include hlogged hevaluate

theorem delegated (c : Class) (o : ObjectId) (method : String) (args : List Value) :
    R (delegated evaluate c o method args) (delegated evaluate' c o method args) := by
  unfold ObjectDispatch.delegated
  refine h.world (fun _ _ => rfl) fun w => ?_
  split
  · exact h.pure none
  · refine h.bind (h.look fun _ _ => rfl) fun o => h.bind (hlogged _) fun _ => ?_
    exact h.bind (hevaluate _ _) fun v => h.pure (some v)

theorem load (loader : ClassLoader) (name : String) :
    R (load evaluate loader name) (load evaluate' loader name) := by
  unfold ObjectDispatch.load
  refine h.bind (hlogged _) fun _ => ?_
  split
  · exact h.pure ()
  · exact h.bind (hevaluate _ _) fun _ => h.pure ()

theorem resolveClass (name : String) (autoload : Bool) :
    R (resolveClass evaluate name autoload) (resolveClass evaluate' name autoload) := by
  unfold ObjectDispatch.resolveClass
  refine h.world (fun _ _ => rfl) fun w => ?_
  split
  · exact h.pure _
  · split
    · exact h.fail _
    · split
      · exact h.fail _
      · refine h.bind (h.load hlogged hevaluate _ _) fun _ => ?_
        refine h.world (fun _ _ => rfl) fun w => ?_
        split
        · exact h.pure _
        · exact h.fail _

theorem cget (args : List Value) : R (cget evaluate args) (cget evaluate' args) := by
  unfold ObjectDispatch.cget
  refine h.bind (h.look fun _ _ => rfl) fun ⟨o, c⟩ => ?_
  dsimp only
  split
  · refine h.bind (h.delegated hlogged hevaluate _ _ _ _) fun _ => ?_
    split
    · exact h.pure _
    · exact h.bind (h.answer _) fun _ => h.look fun _ _ => rfl
  · exact h.fail _

theorem isa (args : List Value) : R (isa evaluate args) (isa evaluate' args) := by
  unfold ObjectDispatch.isa
  refine h.bind (h.look fun _ _ => rfl) fun _ => ?_
  split
  · exact h.fail _
  · split
    · refine h.bind (h.resolveClass hlogged hevaluate _ _) fun _ => ?_
      exact h.bind (h.look fun _ _ => rfl) fun _ => h.pure _
    · exact h.fail _

end Collaborators

/-! ### Assignments of options -/

section Assignments

variable {enter enter' : Enter}
variable (hassign : ∀ o v x, R (assignOption enter o v x) (assignOption enter' o v x))

include hassign

theorem assignOptions (c : Class) (o : ObjectId) (args : List Value) :
    R (assignOptions enter c o args) (assignOptions enter' c o args) := by
  fun_induction ObjectDispatch.assignOptions enter c o args with
  | case1 => exact h.pure ()
  | case2 => exact h.bind (h.answer _) fun _ => h.fail _
  | case3 token value rest ih =>
    rw [ObjectDispatch.assignOptions]
    exact h.bind (h.answer _) fun _ => h.bind (hassign _ _ _) fun _ => ih

theorem configure (hlogged : ∀ v, R (Run.happen (.logged v)) (Run.happen (.logged v)))
    {evaluate evaluate' : Evaluate} (hevaluate : ∀ e args, R (evaluate e args) (evaluate' e args))
    (args : List Value) : R (configure enter evaluate args) (configure enter' evaluate' args) := by
  unfold ObjectDispatch.configure
  refine h.bind (h.look fun _ _ => rfl) fun ⟨o, c⟩ => ?_
  refine h.bind (h.delegated hlogged hevaluate _ _ _ _) fun _ => ?_
  split
  · exact h.pure _
  · split
    · exact h.look (World.blind_listOptions _ _)
    · split
      · exact h.fail _
      · exact h.bind (h.answer _) fun _ => h.look fun _ _ => rfl
    · exact h.bind (h.assignOptions hassign _ _ _) fun _ => h.pure _

end Assignments

end Run.Congruence

/-! ### Expressions -/

/-- A relation that every operation of the language keeps, where frames are entered by
`enter` on one side and by `enter'` on the other. -/
structure OperationCongruence (enter enter' : Enter) (R : ∀ {α : Type}, Run α → Run α → Prop) :
    Prop extends Run.Congruence R where
  logged (v : Value) : R (Run.happen (.logged v)) (Run.happen (.logged v))
  loaderInstalled (l : ClassLoader) :
    R (Run.happen (.loaderInstalled l)) (Run.happen (.loaderInstalled l))
  delegateInstalled (e : Expr) :
    R (Run.happen (.delegateInstalled e)) (Run.happen (.delegateInstalled e))
  setVariable (n : String) (v : Value) : R (setVariable n v) (setVariable n v)
  unsetVariable (n : String) : R (unsetVariable n) (unsetVariable n)
  defineClass (d : ClassDecl Expr) : R (defineClass d) (defineClass d)
  bindComponent (o : ObjectId) (n : String) (t : ObjectId) :
    R (bindComponent o n t) (bindComponent o n t)
  invoke (o : ObjectId) (n : String) (args : List Value) :
    R (invoke enter o n args) (invoke enter' o n args)
  invokeProc (c : ClassId) (n : String) (args : List Value) :
    R (invokeProc enter c n args) (invokeProc enter' c n args)
  evalWithin (c : ClassId) (o : Option ObjectId) (e : Expr) (args : List Value) :
    R (evalWithin enter c o e args) (evalWithin enter' c o e args)
  chain (args : List Value) : R (chain enter args) (chain enter' args)
  createObject (c : ClassId) (n : String) (args : List Value) :
    R (createObject enter c n args) (createObject enter' c n args)
  deleteObject (o : ObjectId) : R (deleteObject enter o) (deleteObject enter' o)
  configure {evaluate evaluate' : Evaluate}
    (hevaluate : ∀ e args, R (evaluate e args) (evaluate' e args)) (args : List Value) :
    R (configure enter evaluate args) (configure enter' evaluate' args)

namespace OperationCongruence

variable {R : ∀ {α : Type}, Run α → Run α → Prop} {enter enter' : Enter}
variable (h : OperationCongruence enter enter' R)

include h

theorem runBuiltin {evaluate evaluate' : Evaluate}
    (hevaluate : ∀ e args, R (evaluate e args) (evaluate' e args)) (args : List Value)
    (b : Builtin) : R (runBuiltin enter evaluate args b) (runBuiltin enter' evaluate' args b) := by
  unfold ObjectDispatch.runBuiltin
  cases b with
  | cget => exact h.cget h.logged hevaluate args
  | configure => exact h.configure hevaluate args
  | info => exact h.look fun _ _ => rfl
  | isa => exact h.isa h.logged hevaluate args

section Expressions

set_option linter.unusedSectionVars false

variable {consult consult' : Evaluate}
variable (hresolve : ∀ n a, R (resolveClass consult n a) (resolveClass consult' n a))

include hresolve

mutual

/-- Each kind of expression evaluates its parts, from left to right, and then does one
thing, for which the relation has a law. -/
theorem eval : ∀ (e : Expr) (args : List Value),
    R (e.eval enter consult args) (e.eval enter' consult' args)
  | .const v, _ => by
      rw [Expr.eval, Expr.eval]
      exact h.pure v
  | .list items, args => by
      rw [Expr.eval, Expr.eval]
      exact h.bind (evalAll items args) fun _ => h.pure _
  | .sequence items, args => by
      rw [Expr.eval, Expr.eval]
      exact h.bind (evalAll items args) fun _ => h.pure _
  | .concat items, args => by
      rw [Expr.eval, Expr.eval]
      exact h.bind (evalAll items args) fun _ => h.pure _
  | .arguments, args => by
      rw [Expr.eval, Expr.eval]
      exact h.pure _
  | .argument i, args => by
      rw [Expr.eval, Expr.eval]
      split
      · exact h.pure _
      · exact h.fail _
  | .cond c a b, args => by
      rw [Expr.eval, Expr.eval]
      refine h.bind (eval c args) fun v => ?_
      split
      · exact eval a args
      · exact eval b args
  | .sameText a b, args => by
      rw [Expr.eval, Expr.eval]
      exact h.bind (eval a args) fun _ => h.bind (eval b args) fun _ => h.pure _
  | .less a b, args => by
      rw [Expr.eval, Expr.eval]
      refine h.bind (eval a args) fun _ => h.bind (h.answer _) fun _ => ?_
      exact h.bind (eval b args) fun _ => h.bind (h.answer _) fun _ => h.pure _
  | .add a b, args => by
      rw [Expr.eval, Expr.eval]
      refine h.bind (eval a args) fun _ => h.bind (h.answer _) fun _ => ?_
      exact h.bind (eval b args) fun _ => h.bind (h.answer _) fun _ => h.pure _
  | .raise kind text, args => by
      rw [Expr.eval, Expr.eval]
      exact h.bind (eval text args) fun _ => h.fail _
  | .guarded body, args => by
      rw [Expr.eval, Expr.eval]
      exact h.bind (h.attempt (eval body args)) fun _ => h.pure _
  | .log item, args => by
      rw [Expr.eval, Expr.eval]
      exact h.bind (eval item args) fun _ => h.bind (h.logged _) fun _ => h.pure _
  | .getVar name, args => by
      rw [Expr.eval, Expr.eval]
      exact h.bind (eval name args) fun _ => h.look fun _ _ => rfl
  | .setVar name value, args => by
      rw [Expr.eval, Expr.eval]
      refine h.bind (eval name args) fun _ => h.bind (eval value args) fun _ => ?_
      exact h.bind (h.setVariable _ _) fun _ => h.pure _
  | .unsetVar name, args => by
      rw [Expr.eval, Expr.eval]
      refine h.bind (eval name args) fun _ => ?_
      exact h.bind (h.unsetVariable _) fun _ => h.pure _
  | .chain items, args => by
      rw [Expr.eval, Expr.eval]
      exact h.bind (evalAll items args) fun _ => h.chain _
  | .chainOnward, args => by
      rw [Expr.eval, Expr.eval]
      exact h.chain _
  | .invoke object member items, args => by
      rw [Expr.eval, Expr.eval]
      refine h.bind (evalObject object args) fun _ => h.bind (eval member args) fun _ => ?_
      exact h.bind (evalAll items args) fun _ => h.invoke _ _ _
  | .invokeOnward object member, args => by
      rw [Expr.eval, Expr.eval]
      refine h.bind (evalObject object args) fun _ => h.bind (eval member args) fun _ => ?_
      exact h.invoke _ _ _
  | .callProc cls member items, args => by
      rw [Expr.eval, Expr.eval]
      refine h.bind (evalClass cls args) fun _ => h.bind (eval member args) fun _ => ?_
      exact h.bind (evalAll items args) fun _ => h.invokeProc _ _ _
  | .within cls object body, args => by
      rw [Expr.eval, Expr.eval]
      refine h.bind (evalClass cls args) fun _ => h.bind (evalOperand object args) fun _ => ?_
      exact h.bind (h.look fun _ _ => rfl) fun _ => h.evalWithin _ _ _ _
  | .defineClass decl, args => by
      rw [Expr.eval, Expr.eval]
      exact h.bind (h.defineClass _) fun _ => h.pure _
  | .resolveClass name autoload, args => by
      rw [Expr.eval, Expr.eval]
      refine h.bind (eval name args) fun _ => h.bind (eval autoload args) fun _ => ?_
      exact h.bind (hresolve _ _) fun _ => h.pure _
  | .create cls name items, args => by
      rw [Expr.eval, Expr.eval]
      refine h.bind (evalClass cls args) fun _ => h.bind (eval name args) fun _ => ?_
      refine h.bind (evalAll items args) fun _ => ?_
      exact h.bind (h.createObject _ _ _) fun _ => h.pure _
  | .delete object, args => by
      rw [Expr.eval, Expr.eval]
      refine h.bind (evalObject object args) fun _ => ?_
      exact h.bind (h.deleteObject _) fun _ => h.pure _
  | .bindComponent object component target, args => by
      rw [Expr.eval, Expr.eval]
      refine h.bind (evalObject object args) fun _ => h.bind (eval component args) fun _ => ?_
      refine h.bind (evalObject target args) fun _ => ?_
      exact h.bind (h.bindComponent _ _ _) fun _ => h.pure _
  | .setLoader known, args => by
      rw [Expr.eval, Expr.eval]
      exact h.bind (h.loaderInstalled _) fun _ => h.pure _
  | .setDelegate code, args => by
      rw [Expr.eval, Expr.eval]
      exact h.bind (h.delegateInstalled _) fun _ => h.pure _
  | .ask q, args => by
      rw [Expr.eval, Expr.eval]
      exact h.look q.blind_answer
  | .askName q name, args => by
      rw [Expr.eval, Expr.eval]
      refine h.bind (eval name args) fun _ => ?_
      exact h.world (fun _ _ => rfl) fun _ => h.pure _
  | .askClass q cls, args => by
      rw [Expr.eval, Expr.eval]
      exact h.bind (evalClass cls args) fun _ => h.look fun _ _ => rfl
  | .askClassName q cls name, args => by
      rw [Expr.eval, Expr.eval]
      refine h.bind (evalClass cls args) fun _ => h.bind (eval name args) fun _ => ?_
      exact h.look fun _ _ => rfl
  | .describeObject object, args => by
      rw [Expr.eval, Expr.eval]
      exact h.bind (evalObject object args) fun _ => h.look fun _ _ => rfl
  | .askObjectName q object name, args => by
      rw [Expr.eval, Expr.eval]
      refine h.bind (evalObject object args) fun _ => h.bind (eval name args) fun _ => ?_
      exact h.look (q.blind_answer _ _)
  | .isa object cls, args => by
      rw [Expr.eval, Expr.eval]
      refine h.bind (evalObject object args) fun _ => h.bind (evalClass cls args) fun _ => ?_
      exact h.bind (h.look fun _ _ => rfl) fun _ => h.pure _

theorem evalAll : ∀ (es : List Expr) (args : List Value),
    R (Expr.evalAll enter consult es args) (Expr.evalAll enter' consult' es args)
  | [], _ => by
      rw [Expr.evalAll, Expr.evalAll]
      exact h.pure _
  | e :: es, args => by
      rw [Expr.evalAll, Expr.evalAll]
      exact h.bind (eval e args) fun _ => h.bind (evalAll es args) fun _ => h.pure _

theorem evalOperand : ∀ (e : Option Expr) (args : List Value),
    R (Expr.evalOperand enter consult e args) (Expr.evalOperand enter' consult' e args)
  | none, _ => by
      rw [Expr.evalOperand, Expr.evalOperand]
      exact h.pure _
  | some e, args => by
      rw [Expr.evalOperand, Expr.evalOperand]
      exact h.bind (eval e args) fun _ => h.pure _

theorem evalObject : ∀ (e : Option Expr) (args : List Value),
    R (Expr.evalObject enter consult e args) (Expr.evalObject enter' consult' e args)
  | none, _ => by
      rw [Expr.evalObject, Expr.evalObject]
      exact h.look fun _ _ => rfl
  | some e, args => by
      rw [Expr.evalObject, Expr.evalObject]
      exact h.bind (eval e args) fun _ => h.look fun _ _ => rfl

theorem evalClass : ∀ (e : Option Expr) (args : List Value),
    R (Expr.evalClass enter consult e args) (Expr.evalClass enter' consult' e args)
  | none, _ => by
      rw [Expr.evalClass, Expr.evalClass]
      exact h.look fun _ _ => rfl
  | some e, args => by
      rw [Expr.evalClass, Expr.evalClass]
      exact h.bind (eval e args) fun _ => h.look fun _ _ => rfl

end

end Expressions

/-- Loader calls are expressions again: an induction on how many are granted.  The
last of them consults nothing that ends. -/
theorem evaluateLoading
    (hresolve : ∀ n a, R (ObjectDispatch.resolveClass (fun _ _ => Run.exhaust) n a)
      (ObjectDispatch.resolveClass (fun _ _ => Run.exhaust) n a))
    (loads : Nat) (e : Expr) (args : List Value) :
    R (evaluateLoading enter loads e args) (evaluateLoading enter' loads e args) := by
  induction loads generalizing e args with
  | zero => exact h.eval hresolve e args
  | succ loads ih => exact h.eval (h.resolveClass h.logged ih) e args

end OperationCongruence

/-! ### Events and frames -/

/-- The events that leave the frames, the constructions, the classes and the
numbers of objects as they are. -/
def Event.IsLocal : Event → Prop
  | .entered _ _ | .left _ | .constructionBegun _ | .constructionEnded _
  | .classRegistered _ | .objectCreated _ _ => False
  | _ => True

/-- The variable that an event writes: the object, and the full name in it. -/
def Event.write? : Event → Option (ObjectId × String)
  | .assigned o x _ | .cleared o x => some (o, x)
  | _ => none

/-- A relation that the changes to variables keep. -/
structure AssignmentCongruence (R : ∀ {α : Type}, Run α → Run α → Prop) : Prop
    extends Run.Congruence R where
  assigned (o : ObjectId) (x : String) (v : Value) :
    R (Run.happen (.assigned o x v)) (Run.happen (.assigned o x v))
  cleared (o : ObjectId) (x : String) : R (Run.happen (.cleared o x)) (Run.happen (.cleared o x))

namespace AssignmentCongruence

variable {R : ∀ {α : Type}, Run α → Run α → Prop} (h : AssignmentCongruence R)

include h

theorem setVariable (n : String) (v : Value) : R (setVariable n v) (setVariable n v) := by
  unfold ObjectDispatch.setVariable
  refine h.bind (h.look fun _ _ => rfl) fun ⟨o, x⟩ => h.bind (h.look fun _ _ => rfl) fun _ => ?_
  exact h.assigned _ _ _

theorem unsetVariable (n : String) : R (unsetVariable n) (unsetVariable n) := by
  unfold ObjectDispatch.unsetVariable
  refine h.bind (h.look fun _ _ => rfl) fun ⟨o, x⟩ => h.bind (h.look fun _ _ => rfl) fun _ => ?_
  split
  · exact h.fail _
  · exact h.cleared _ _

theorem bindComponent (o : ObjectId) (n : String) (t : ObjectId) :
    R (bindComponent o n t) (bindComponent o n t) := by
  unfold ObjectDispatch.bindComponent
  refine h.bind (h.look (World.blind_component _ _)) fun _ => ?_
  refine h.bind (h.look fun _ _ => rfl) fun _ => h.bind (h.look fun _ _ => rfl) fun _ => ?_
  exact h.assigned _ _ _

theorem restore (o : ObjectId) (n : String) (v : Option Value) :
    R (restore o n v) (restore o n v) := by
  unfold ObjectDispatch.restore
  refine h.world (fun _ _ => rfl) fun w => ?_
  split
  · split
    · exact h.assigned _ _ _
    · exact h.cleared _ _
  · exact h.pure ()

theorem initializeVariables (o : ObjectId) (cs : List ClassId) :
    R (initializeVariables o cs) (initializeVariables o cs) := by
  refine h.forM fun id _ => ?_
  refine h.bind (h.look fun _ _ => rfl) fun c => h.bind (h.look fun _ _ => rfl) fun _ => ?_
  refine h.forM fun v _ => ?_
  split
  · exact h.assigned _ _ _
  · exact h.pure ()

end AssignmentCongruence

/-- A relation that every local event keeps unless it writes a variable, every definition
of a class, and everything that enters one frame, by `enter` on one side and by `enter'`
on the other. -/
structure CallCongruence (enter enter' : Enter) (R : ∀ {α : Type}, Run α → Run α → Prop) : Prop
    extends Run.Congruence R where
  happen (e : Event) : e.IsLocal → e.write? = none → R (Run.happen e) (Run.happen e)
  defineClass (d : ClassDecl Expr) : R (defineClass d) (defineClass d)
  enterFrame (f : Frame) (a : Activity) (args : List Value) : R (enter f a args) (enter' f a args)

namespace CallCongruence

variable {R : ∀ {α : Type}, Run α → Run α → Prop} {enter enter' : Enter}
variable (h : CallCongruence enter enter' R)

include h

theorem removeObject (o : ObjectId) : R (removeObject o) (removeObject o) := by
  unfold ObjectDispatch.removeObject
  refine h.world (fun _ _ => rfl) fun w => ?_
  split
  · exact h.happen _ trivial rfl
  · exact h.pure ()

theorem callMember (f : MemberFunction) (o : Option ObjectId) (n : String) (args : List Value) :
    R (callMember enter f o n args) (callMember enter' f o n args) :=
  h.enterFrame _ _ _

theorem invoke (o : ObjectId) (n : String) (args : List Value) :
    R (invoke enter o n args) (invoke enter' o n args) := by
  unfold ObjectDispatch.invoke
  refine h.bind (h.look fun _ _ => rfl) fun _ => h.bind (h.look fun _ _ => rfl) fun _ => ?_
  exact h.callMember _ _ _ _

theorem invokeProc (c : ClassId) (n : String) (args : List Value) :
    R (invokeProc enter c n args) (invokeProc enter' c n args) := by
  unfold ObjectDispatch.invokeProc
  refine h.bind (h.look fun _ _ => rfl) fun _ => h.bind (h.look fun _ _ => rfl) fun _ => ?_
  split
  · exact h.fail _
  · exact h.callMember _ _ _ _

theorem evalWithin (c : ClassId) (o : Option ObjectId) (e : Expr) (args : List Value) :
    R (evalWithin enter c o e args) (evalWithin enter' c o e args) := by
  unfold ObjectDispatch.evalWithin
  exact h.bind (h.look fun _ _ => rfl) fun _ => h.enterFrame _ _ _

theorem runInitializer (f : MemberFunction) (o : ObjectId) (args : List Value) :
    R (runInitializer enter f o args) (runInitializer enter' f o args) := by
  unfold ObjectDispatch.runInitializer
  split
  · exact h.pure ()
  · exact h.bind (h.enterFrame _ _ _) fun _ => h.pure ()

theorem runConstructorWith {super super' : ClassId → Run Unit}
    (hsuper : ∀ c, R (super c) (super' c)) (f : MemberFunction) (o : ObjectId)
    (args : List Value) :
    R (runConstructorWith enter super f o args) (runConstructorWith enter' super' f o args) := by
  unfold ObjectDispatch.runConstructorWith
  refine h.bind (h.look fun _ _ => rfl) fun _ => ?_
  split
  · exact h.pure _
  · refine h.bind (h.happen _ trivial rfl) fun _ => h.bind (h.runInitializer _ _ _) fun _ => ?_
    refine h.bind (h.look fun _ _ => rfl) fun c => h.bind (h.forM fun k _ => hsuper k) fun _ => ?_
    exact h.callMember _ _ _ _

theorem runDestructors (o : ObjectId) (cs : List ClassId) :
    R (runDestructors enter o cs) (runDestructors enter' o cs) := by
  induction cs with
  | nil => exact h.pure ()
  | cons c cs ih =>
    unfold ObjectDispatch.runDestructors
    refine h.bind (h.look fun _ _ => rfl) fun k => ?_
    split
    · exact ih
    · refine h.bind (h.look fun _ _ => rfl) fun _ => ?_
      split
      · exact ih
      · refine h.bind (h.happen _ trivial rfl) fun _ => ?_
        refine h.bind (h.attempt (h.callMember _ _ _ _)) fun result => ?_
        split
        · exact ih
        · refine h.bind (h.look fun _ _ => rfl) fun _ => ?_
          exact h.bind (h.happen _ trivial rfl) fun _ => h.fail _

theorem deleteObject (o : ObjectId) : R (deleteObject enter o) (deleteObject enter' o) := by
  unfold ObjectDispatch.deleteObject
  refine h.bind (h.look fun _ _ => rfl) fun _ => h.bind (h.happen _ trivial rfl) fun _ => ?_
  exact h.bind (h.runDestructors _ _) fun _ => h.removeObject _

theorem chain
    (hctor : ∀ f o args, R (runConstructor enter f o args) (runConstructor enter' f o args))
    (args : List Value) : R (chain enter args) (chain enter' args) := by
  unfold ObjectDispatch.chain
  refine h.bind (h.happen _ trivial rfl) fun _ => ?_
  refine h.bind (h.look World.blind_chainTarget) fun target => ?_
  split
  · exact h.pure _
  · refine h.bind (h.look fun _ _ => rfl) fun ⟨c, o⟩ => ?_
    dsimp only
    split
    · refine h.world (fun _ _ => rfl) fun w => ?_
      split
      · exact h.fail _
      · exact hctor _ _ _
    · split
      · split
        · refine h.bind (h.look fun _ _ => rfl) fun _ => ?_
          split
          · exact h.pure _
          · exact h.bind (h.happen _ trivial rfl) fun _ => h.callMember _ _ _ _
        · exact h.callMember _ _ _ _
      · exact h.callMember _ _ _ _

/-- **Related calls make related operations**, as soon as those that write variables,
constructors and the creation of objects are related. -/
theorem toOperationCongruence (hset : ∀ n v, R (setVariable n v) (setVariable n v))
    (hunset : ∀ n, R (unsetVariable n) (unsetVariable n))
    (hcomponent : ∀ o n t, R (bindComponent o n t) (bindComponent o n t))
    (hctor : ∀ f o args, R (runConstructor enter f o args) (runConstructor enter' f o args))
    (hcreate : ∀ c n args, R (createObject enter c n args) (createObject enter' c n args))
    (hconfigure : ∀ {evaluate evaluate' : Evaluate},
      (∀ e args, R (evaluate e args) (evaluate' e args)) →
        ∀ args, R (configure enter evaluate args) (configure enter' evaluate' args)) :
    OperationCongruence enter enter' R where
  toCongruence := h.toCongruence
  logged _ := h.happen _ trivial rfl
  loaderInstalled _ := h.happen _ trivial rfl
  delegateInstalled _ := h.happen _ trivial rfl
  setVariable := hset
  unsetVariable := hunset
  defineClass := h.defineClass
  bindComponent := hcomponent
  invoke := h.invoke
  invokeProc := h.invokeProc
  evalWithin := h.evalWithin
  chain := h.chain hctor
  createObject := hcreate
  deleteObject := h.deleteObject
  configure := hconfigure

/-- Superclasses are constructed by the same function: an induction on how deep
they may nest. -/
theorem constructClass (hexhaust : R (Run.exhaust : Run Unit) Run.exhaust) (o : ObjectId)
    (depth : Nat) (c : ClassId) (args : List Value) :
    R (constructClass enter o depth c args) (constructClass enter' o depth c args) := by
  induction depth generalizing c args with
  | zero => exact hexhaust
  | succ depth ih =>
    unfold ObjectDispatch.constructClass
    refine h.bind (h.look fun _ _ => rfl) fun _ => ?_
    split
    · exact h.pure _
    · refine h.bind (h.look fun _ _ => rfl) fun k => ?_
      split
      · refine h.bind ?_ fun _ => h.pure _
        exact h.runConstructorWith (fun c => ih c []) _ _ _
      · exact h.bind (h.happen _ trivial rfl) fun _ => h.forM fun c _ => ih c []

theorem runConstructor (hexhaust : R (Run.exhaust : Run Unit) Run.exhaust) (f : MemberFunction)
    (o : ObjectId) (args : List Value) :
    R (runConstructor enter f o args) (runConstructor enter' f o args) :=
  h.runConstructorWith (fun c => h.constructClass hexhaust _ _ c []) _ _ _

end CallCongruence

/-- A relation that every local event keeps, every definition of a class, and everything
that enters one frame, by `enter` on one side and by `enter'` on the other. -/
structure FrameCongruence (enter enter' : Enter) (R : ∀ {α : Type}, Run α → Run α → Prop) : Prop
    extends Run.Congruence R where
  happen (e : Event) : e.IsLocal → R (Run.happen e) (Run.happen e)
  defineClass (d : ClassDecl Expr) : R (defineClass d) (defineClass d)
  enterFrame (f : Frame) (a : Activity) (args : List Value) : R (enter f a args) (enter' f a args)

namespace FrameCongruence

variable {R : ∀ {α : Type}, Run α → Run α → Prop} {enter enter' : Enter}
variable (h : FrameCongruence enter enter' R)

include h

theorem callCongruence : CallCongruence enter enter' R where
  toCongruence := h.toCongruence
  happen e he _ := h.happen e he
  defineClass := h.defineClass
  enterFrame := h.enterFrame

theorem assignments : AssignmentCongruence R where
  toCongruence := h.toCongruence
  assigned _ _ _ := h.happen _ trivial
  cleared _ _ := h.happen _ trivial

theorem assignOption (o : ObjectId) (v : Variable) (x : Value) :
    R (assignOption enter o v x) (assignOption enter' o v x) := by
  unfold ObjectDispatch.assignOption
  refine h.bind (h.look fun _ _ => rfl) fun _ => h.bind (h.happen _ trivial) fun _ => ?_
  split
  · exact h.pure ()
  · refine h.bind (h.attempt (h.enterFrame _ _ _)) fun result => ?_
    split
    · exact h.pure ()
    · exact h.bind (h.assignments.restore _ _ _) fun _ => h.fail _

/-- **Related frames make related operations**, as soon as constructors and the creation
of objects are related. -/
theorem toOperationCongruence
    (hctor : ∀ f o args, R (runConstructor enter f o args) (runConstructor enter' f o args))
    (hcreate : ∀ c n args, R (createObject enter c n args) (createObject enter' c n args)) :
    OperationCongruence enter enter' R :=
  h.callCongruence.toOperationCongruence h.assignments.setVariable h.assignments.unsetVariable
    h.assignments.bindComponent hctor hcreate fun hevaluate =>
      h.toCongruence.configure h.assignOption (fun _ => h.happen _ trivial) hevaluate

end FrameCongruence

end ObjectDispatch
