import ObjectDispatch.Proofs.Termination

/-!
# Calls of the class loader

Asking the class loader enters no frame, so the limit on frames says nothing about a
loader that looks a class up while it is asked for one.  It does say something as soon
as the loader looks classes up only in code that runs in a frame of its own: a member
that is called, a builtin `isa`, an expression in the scope of a class.  Such calls
are refused at the limit like all others, and every step ends.

Whether code asks directly is read off the expression.  Code that does not is evaluated
the same whatever would be asked.

## Main definitions

* `Expr.asksLoader` — code that may ask the loader without entering a frame for it.
* `ClassLoader.AsksInFrames` — loaders whose code does not.

## Main results

* `Expr.eval_eq_of_not_asksLoader` — code that does not ask is the same for all loaders.
* `session_ends_of_loaders` — **a session ends all its steps if its loaders ask only in
  frames.**
* `exists_loader_without_end` — a loader that asks for the missing name again.
-/

namespace ObjectDispatch

/-! ### Code that asks the loader -/

namespace Expr

/-- The expression is a value that counts as false. -/
def isFalse : Expr → Bool
  | .const v => !v.isTrue
  | _ => false

mutual

/-- Evaluation may ask the class loader without entering a frame for that. -/
def asksLoader : Expr → Bool
  | .resolveClass name autoload => asksLoader name || asksLoader autoload || !autoload.isFalse
  | .const _ | .arguments | .argument _ | .chainOnward | .ask _ => false
  -- code that is installed is not evaluated here
  | .defineClass _ | .setLoader _ | .setDelegate _ => false
  | .list items | .sequence items | .concat items | .chain items => anyAsksLoader items
  | .raise _ e | .guarded e | .log e | .getVar e | .unsetVar e | .askName _ e => asksLoader e
  | .sameText a b | .less a b | .add a b | .setVar a b => asksLoader a || asksLoader b
  | .cond c a b => asksLoader c || asksLoader a || asksLoader b
  | .invoke a b items | .callProc a b items | .create a b items =>
      operandAsksLoader a || asksLoader b || anyAsksLoader items
  | .invokeOnward a b | .askClassName _ a b | .askObjectName _ a b =>
      operandAsksLoader a || asksLoader b
  -- the body of `within` runs in a frame of its own
  | .within a b _ | .isa a b => operandAsksLoader a || operandAsksLoader b
  | .delete a | .askClass _ a | .describeObject a => operandAsksLoader a
  | .bindComponent a b c => operandAsksLoader a || asksLoader b || operandAsksLoader c

/-- One of the expressions may ask the class loader. -/
def anyAsksLoader : List Expr → Bool
  | [] => false
  | e :: es => asksLoader e || anyAsksLoader es

/-- The operand may ask the class loader. -/
def operandAsksLoader : Option Expr → Bool
  | none => false
  | some e => asksLoader e

end

theorem exists_of_isFalse {e : Expr} (h : e.isFalse = true) :
    ∃ v : Value, e = .const v ∧ v.isTrue = false := by
  cases e with
  | const v => exact ⟨v, rfl, by simpa [isFalse] using h⟩
  | _ => cases h

/-- Without autoloading the loader is not asked. -/
theorem resolveClass_false (consult consult' : Evaluate) (name : String) :
    ObjectDispatch.resolveClass consult name false =
      ObjectDispatch.resolveClass consult' name false := by
  unfold ObjectDispatch.resolveClass
  simp only [Bool.not_false, Bool.true_or, if_true]

variable (enter : Enter) (consult consult' : Evaluate)

/-- **Code that does not ask the loader is evaluated the same** whatever asking it would
do: an induction along the code that may ask. -/
theorem eval_eq_of_not_asksLoader :
    (∀ e : Expr, e.asksLoader = false → eval enter consult e = eval enter consult' e) ∧
    (∀ e : Option Expr, operandAsksLoader e = false →
      evalOperand enter consult e = evalOperand enter consult' e ∧
      evalObject enter consult e = evalObject enter consult' e ∧
      evalClass enter consult e = evalClass enter consult' e) ∧
    ∀ es : List Expr, anyAsksLoader es = false →
      evalAll enter consult es = evalAll enter consult' es := by
  apply asksLoader.mutual_induct
  case case1 =>
    intro name autoload hname _ h
    rw [asksLoader, Bool.or_eq_false_iff, Bool.or_eq_false_iff, Bool.not_eq_false'] at h
    obtain ⟨⟨hquiet, -⟩, hfalse⟩ := h
    obtain ⟨v, rfl, hv⟩ := exists_of_isFalse hfalse
    funext args
    simp only [eval, pure_bind, hname hquiet, hv, resolveClass_false consult consult']
  -- everywhere else the parts decide
  all_goals
    intros
    simp_all [asksLoader, anyAsksLoader, operandAsksLoader, eval, evalAll, evalOperand,
      evalObject, evalClass]

end Expr

/-- The code of the loader asks the loader only in frames of its own. -/
def ClassLoader.AsksInFrames (l : ClassLoader) : Prop := ∀ p ∈ l.entries, p.2.asksLoader = false

instance (l : ClassLoader) : Decidable l.AsksInFrames :=
  inferInstanceAs (Decidable (∀ p ∈ l.entries, p.2.asksLoader = false))

theorem ClassLoader.AsksInFrames.asksLoader_eq_false {l : ClassLoader} (h : l.AsksInFrames)
    {name : String} {code : Expr} (hcode : l.find? name = some code) :
    code.asksLoader = false := by
  obtain ⟨before, after, hentries, -⟩ := List.lookup_eq_some_iff.mp hcode
  exact h (name, code) (by rw [hentries]; exact List.mem_append_right _ List.mem_cons_self)

/-! ### Loader calls end -/

/-- The excuse that a loader has been installed that asks outside its frames. -/
def Excuse.asking : Excuse where
  kept s := ∀ l, s.world.loader = some l → l.AsksInFrames ∨ .loaderInstalled l ∈ s.journal
  kept_after s e h := by
    intro l hl
    cases e with
    | loaderInstalled l' =>
      cases hl
      exact Or.inr List.mem_cons_self
    | _ => exact (h l hl).imp_right (List.mem_cons_of_mem _)
  excused s := ∃ l, .loaderInstalled l ∈ s.journal ∧ ¬ l.AsksInFrames

theorem Excuse.kept_foldl (x : Excuse) {s : State} (hs : x.kept s) (es : List Event) :
    x.kept (es.foldl State.after s) := by
  induction es generalizing s with
  | nil => exact hs
  | cons e es ih => exact ih (x.kept_after s e hs)

variable {n loads : Nat} {s : State}

/-- Where such a loader has been installed, there is nothing to show of the run. -/
theorem Excuse.excused_of_mem {es : List Event} (h : Excuse.asking.excused s) :
    Excuse.asking.excused (es.foldl State.after s) := by
  obtain ⟨l, hl, hasks⟩ := h
  refine ⟨l, ?_, hasks⟩
  rw [State.journal_foldl_after]
  exact List.mem_append_right _ hl

theorem Run.endsFrom_of_excused {α : Type} {r : Run α} (hfollows : r.Follows)
    (hkeeps : r.KeepsFrames) (hs : Begins .asking n s) (h : Excuse.asking.excused s) :
    r.EndsFrom .asking n s := by
  obtain ⟨es, hes, hend⟩ := hfollows s
  refine ⟨fun _ => ?_, fun hended => ⟨⟨?_, ?_⟩, ?_⟩⟩
  · rw [hend]
    exact Excuse.excused_of_mem h
  · rw [hend, State.world_foldl_after]
    exact World.replay_induct (I := fun w => w.registry.Built w.options)
      (fun _ _ hw he => Session.built_after hw he) hs.grants.built hes
  · rw [(hkeeps s hended).1]
    exact hs.grants.room
  · rw [hend]
    exact Excuse.asking.kept_foldl hs.kept es

/-- Code that does not ask the loader ends however few loader calls are granted. -/
theorem evaluateLoading_ends_of_not_asksLoader {x : Excuse} {enter : Enter}
    (h : OperationLaw enter (Run.Ends x n)) {code : Expr} (hcode : code.asksLoader = false)
    (k : Nat) (args : List Value) : (evaluateLoading enter k code args).Ends x n := by
  have hresolve : ∀ name autoload,
      (resolveClass (fun _ _ => pure Value.empty) name autoload).Ends x n :=
    h.resolveClass h.logged fun _ _ => h.pure _
  have hsilent := h.eval hresolve code args
  have heq (consult : Evaluate) :
      code.eval enter consult = code.eval enter fun _ _ => pure Value.empty :=
    (Expr.eval_eq_of_not_asksLoader enter consult _).1 code hcode
  cases k with
  | zero =>
    rw [evaluateLoading, heq]
    exact hsilent
  | succ k =>
    rw [evaluateLoading, heq]
    exact hsilent

/-- What follows its events and leaves its frames, also while it asks a loader. -/
theorem load_follows (loads n k : Nat) (loader : ClassLoader) (name : String) :
    (load (evaluateLoading (enterFrame (runCode loads n)) k) loader name).Follows :=
  have h := follows_localLaw.toEvaluationLaw createObject_follows
  follows_localLaw.toCompositional.load (fun _ => follows_localLaw.happen _ trivial)
    (h.evaluateLoading (h.runCode loads n) k) loader name

theorem load_keepsFrames (loads n k : Nat) (loader : ClassLoader) (name : String) :
    (load (evaluateLoading (enterFrame (runCode loads n)) k) loader name).KeepsFrames :=
  have h := keepsFrames_localLaw.toEvaluationLaw createObject_keepsFrames
  keepsFrames_localLaw.toCompositional.load (fun _ => keepsFrames_localLaw.happen _ trivial)
    (h.evaluateLoading (h.runCode loads n) k) loader name

/-- **Asking a loader ends**, unless a loader has been installed that asks outside its
frames. -/
theorem load_endsFrom (h : OperationLaw (enterFrame (runCode loads n)) (Run.Ends .asking n))
    (hs : Run.Begins .asking n s) {loader : ClassLoader} (hloader : s.world.loader = some loader)
    (k : Nat) (name : String) :
    (load (evaluateLoading (enterFrame (runCode loads n)) k) loader name).EndsFrom .asking n s := by
  by_cases hasks : loader.AsksInFrames
  · have hload : (load (evaluateLoading (enterFrame (runCode loads n)) k) loader name).Ends
        .asking n := by
      unfold load
      refine h.bind (h.logged _) fun _ => ?_
      split
      · exact h.pure ()
      · next code hcode =>
        have hquiet := hasks.asksLoader_eq_false hcode
        exact h.bind (evaluateLoading_ends_of_not_asksLoader h hquiet k _) fun _ => h.pure ()
    exact hload s hs
  · have hinstalled := (hs.kept loader hloader).resolve_left hasks
    exact Run.endsFrom_of_excused (load_follows loads n k loader name)
      (load_keepsFrames loads n k loader name) hs ⟨loader, hinstalled, hasks⟩

/-- One nested loader call is enough for all code. -/
theorem evaluateLoading_ends_asking (hloads : 0 < loads)
    (h : OperationLaw (enterFrame (runCode loads n)) (Run.Ends .asking n)) (e : Expr)
    (args : List Value) :
    (evaluateLoading (enterFrame (runCode loads n)) loads e args).Ends .asking n := by
  cases loads with
  | zero => exact absurd hloads (Nat.lt_irrefl 0)
  | succ k =>
    exact h.eval (resolveClass_ends fun _ ht _ hloader name => load_endsFrom h ht hloader k name)
      e args

/-! ### Sessions -/

namespace Session

variable {w : World}

/-- A step ends in a world whose loader asks in frames, unless another one is installed. -/
theorem step_ends_of_loaders (hloads : 0 < loads) (hw : w.registry.Built w.options)
    (hloader : ∀ l, w.loader = some l → l.AsksInFrames) {e : Expr}
    (hinstalls : ∀ l, .loaderInstalled l ∈ (step loads w e).2.journal → l.AsksInFrames) :
    (step loads w e).1 ≠ .exhausted ∧
      (step loads w e).2.world.registry.Built (step loads w e).2.world.options ∧
      ∀ l, (step loads w e).2.world.loader = some l → l.AsksInFrames := by
  have hbegins : Run.Begins .asking w.stack.limit { world := w } :=
    ⟨⟨hw, Nat.le_add_left _ _⟩, fun l hl => Or.inl (hloader l hl)⟩
  have hoperations : OperationLaw (enterFrame (runCode loads w.stack.limit))
      (Run.Ends .asking w.stack.limit) :=
    runCode_operationLaw (fun _ h => evaluateLoading_ends_asking hloads h) _
  obtain ⟨hexcused, hends⟩ := evaluateLoading_ends_asking hloads hoperations e [] _ hbegins
  have hend : (step loads w e).1 ≠ .exhausted := by
    intro hexhausted
    obtain ⟨l, hl, hasks⟩ := hexcused hexhausted
    exact hasks (hinstalls l hl)
  obtain ⟨hgrants, hkept⟩ := hends hend
  exact ⟨hend, hgrants.built, fun l hl => (hkept l hl).elim id (hinstalls l)⟩

theorem steps_end_of_loaders (hloads : 0 < loads) {es : List Expr}
    (hw : w.registry.Built w.options) (hloader : ∀ l, w.loader = some l → l.AsksInFrames)
    (hinstalls : ∀ l, .loaderInstalled l ∈ history loads w es → l.AsksInFrames) :
    ∀ r ∈ steps loads w es, r.outcome ≠ .exhausted := by
  refine steps_end_of_step
    (I := fun w => w.registry.Built w.options ∧ ∀ l, w.loader = some l → l.AsksInFrames)
    (A := fun ev => ∀ l, ev = .loaderInstalled l → l.AsksInFrames) ?_ ⟨hw, hloader⟩
    fun ev hev l hl => hinstalls l (hl ▸ hev)
  rintro v e ⟨hv, hbefore⟩ hjournal
  exact step_ends_of_loaders hloads hv hbefore fun l hl => hjournal _ hl l rfl

end Session

/-- **A session ends all its steps if its loaders ask only in frames**, with a value or
with an error, whatever the options, the classes and their code: a loader whose code
comes back to it in frames alone is cut off at the limit.  One nested loader call in each
frame is enough for that. -/
theorem session_ends_of_loaders {loads : Nat} (hloads : 0 < loads) (o : EngineOptions)
    (es : List Expr) (hinstalls : ∀ l,
      .loaderInstalled l ∈ Session.history loads (World.initial o) es → l.AsksInFrames) :
    ∀ r ∈ Session.run loads o es,
      (∃ v, r.outcome = .value v) ∨ ∃ e, r.outcome = .failure e := by
  intro r hr
  have hend := Session.steps_end_of_loaders hloads .empty (fun _ hl => by cases hl) hinstalls r hr
  cases houtcome : r.outcome with
  | value v => exact Or.inl ⟨v, rfl⟩
  | failure e => exact Or.inr ⟨e, rfl⟩
  | exhausted => exact absurd houtcome hend

/-- Installs a loader that asks an object whether it is of the missing class, and looks that
class up. -/
def mirrors : List Expr :=
  [.defineClass { name := "Mirror" },
    .create (some (.const (.str "Mirror"))) (.const (.str "m")) [],
    .setLoader [("X",
      .invoke (some (.const (.str "m"))) (.const (.str "isa")) [.const (.str "X")])],
    .resolveClass (.const (.str "X")) (.const (.int 1))]

/-- The loader is asked by the builtin methods that it calls, and then a frame is refused. -/
theorem mirrors_end :
    ((Session.run 1 { maxCallDepth := 3 } mirrors).map fun r =>
      (match r.outcome with | .failure e => some e.kind | _ => none, r.log.length)) =
        [(none, 0), (none, 0), (none, 0), (some "Usage", 4)] ∧
    ∀ r ∈ Session.run 1 { maxCallDepth := 3 } mirrors,
      (∃ v, r.outcome = .value v) ∨ ∃ e, r.outcome = .failure e := by
  have hinstalls : (Session.history 1 (World.initial { maxCallDepth := 3 }) mirrors).all
      (fun e => match e with | .loaderInstalled l => decide l.AsksInFrames | _ => true) = true := by
    decide +kernel
  refine ⟨by decide +kernel, session_ends_of_loaders Nat.one_pos { maxCallDepth := 3 } mirrors
    fun l hl => ?_⟩
  exact of_decide_eq_true (List.all_eq_true.mp hinstalls _ hl)

/-! ### A loader without end -/

/-- Where the code of the loader does not end, neither does looking a class up. -/
theorem resolveClass_exhausted {consult : Evaluate} {name : String} {loader : ClassLoader}
    {code : Expr} (hnone : s.world.findClass? name = none)
    (hloader : s.world.loader = some loader) (hautoload : s.world.options.autoload = true)
    (hcode : loader.find? name = some code)
    (hconsult : ∀ t, t.world = s.world → (consult code [.str name] t).1 = .exhausted) :
    (resolveClass consult name true s).1 = .exhausted := by
  have hload : (load consult loader name s).1 = .exhausted := by
    have hasked := hconsult (s.after (.logged (.list [.str "autoload", .str name]))) rfl
    unfold load
    simp only [Run.bind_apply, Run.happen_apply, hcode]
    split
    · next h => rw [h] at hasked; cases hasked
    · next h => rw [h] at hasked; cases hasked
    · rfl
  unfold resolveClass
  simp only [Run.bind_apply, Run.world_apply, hnone, hloader, hautoload, Bool.not_true,
    Bool.or_self, Bool.false_eq_true, if_false]
  split
  · next h => rw [h] at hload; cases hload
  · next h => rw [h] at hload; cases hload
  · rfl

/-- Looks up a class that is missing. -/
def lookUp : Expr := .resolveClass (.const (.str "X")) (.const (.int 1))

/-- A loader that does the same when it is asked for that class. -/
def echo : ClassLoader := .ofList [("X", lookUp)]

theorem eval_lookUp_exhausted {enter : Enter} {consult : Evaluate} {args : List Value}
    (h : (resolveClass consult "X" true s).1 = .exhausted) :
    (lookUp.eval enter consult args s).1 = .exhausted := by
  have heval : lookUp.eval enter consult args =
      (do return (← resolveClass consult "X" true).value) := by
    unfold lookUp
    simp only [Expr.eval, pure_bind]
    rfl
  rw [heval, Run.bind_apply]
  split
  · next hrun => rw [hrun] at h; cases h
  · next hrun => rw [hrun] at h; cases h
  · rfl

/-- No number of nested loader calls is enough for it. -/
theorem evaluateLoading_lookUp_exhausted (enter : Enter) (loads : Nat) (args : List Value)
    (hnone : s.world.findClass? "X" = none) (hloader : s.world.loader = some echo)
    (hautoload : s.world.options.autoload = true) :
    (evaluateLoading enter loads lookUp args s).1 = .exhausted := by
  induction loads generalizing s args with
  | zero =>
    exact eval_lookUp_exhausted
      (resolveClass_exhausted hnone hloader hautoload rfl fun _ _ => rfl)
  | succ loads ih =>
    refine eval_lookUp_exhausted
      (resolveClass_exhausted hnone hloader hautoload rfl fun t ht => ?_)
    rw [← ht] at hnone hloader hautoload
    exact ih [.str "X"] hnone hloader hautoload

/-- Looks a class up in a loader that creates objects and looks it up again, until there are
four of them. -/
def patience : List Expr :=
  [.defineClass { name := "A" },
    .setLoader [("X", .cond (.less (.ask .objectCount) (.const (.int 4)))
      (.sequence
        [.create (some (.const (.str "A"))) (.concat [.const (.str "o"), .ask .objectCount]) [],
          lookUp])
      (.defineClass { name := "X" }))],
    lookUp]

/-- **A loader that asks for the missing name again is not cut off.**  It goes on without
end, and as far below the limit as it likes. -/
theorem exists_loader_without_end :
    (¬ ∀ (o : EngineOptions) (es : List Expr), ∃ loads,
      ∀ r ∈ Session.run loads o es, r.outcome ≠ .exhausted) ∧
    ((Session.run 5 { maxCallDepth := 2 } patience).map fun r =>
      (match r.outcome with | .value v => some v.text | _ => none, r.log.length)) =
        [(some "0", 0), (some "", 0), (some "1", 5)] := by
  refine ⟨fun h => ?_, by decide +kernel⟩
  obtain ⟨loads, hends⟩ := h {} [.setLoader [("X", lookUp)], lookUp]
  have hinstalled : (Session.step loads (World.initial {}) (.setLoader [("X", lookUp)])).2 =
      State.after { world := World.initial {} } (.loaderInstalled echo) := by
    cases loads <;> rfl
  have hlast : (Session.step loads (State.after { world := World.initial {} }
      (.loaderInstalled echo)).world lookUp).1 = .exhausted :=
    evaluateLoading_lookUp_exhausted _ loads [] rfl rfl rfl
  rw [← hinstalled] at hlast
  exact hends _ (List.mem_cons_of_mem _ List.mem_cons_self) hlast

end ObjectDispatch
