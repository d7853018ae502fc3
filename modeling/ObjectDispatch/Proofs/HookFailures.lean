import ObjectDispatch.Proofs.Configuration

/-!
# Hooks that fail

After `configure` has assigned an option that has a hook, the hook runs in a frame of
its own.  It may do anything there: assign and unset the variable, call `configure`
on the same object again, with hooks that fail in turn, create and delete objects.
It may also not run at all because there is no room for its frame.

When it fails, the variable is what it was before the pair, whatever the hook has
made of it.  The value from before is kept by the assignment itself and not by the
object, so nothing that runs in the hook can change it, and the same holds of the
assignments inside the hook.

## Main definitions

* `World.stored` — the value that an object has under a full name.
* `FailsInHook` — a pair whose hook fails, after others that were assigned.

## Main results

* `assignOption_apply_of_hook_fails` — an assignment whose hook fails is taken back.
* `configure_restores_option` — **what a failing hook leaves of the assignments.**
-/

namespace ObjectDispatch

variable {o : EngineOptions} {c : Class} {object : ObjectId} {ob : Object} {v : Variable}
variable {w : World}

/-- The value that an object has under a full name, if the object lives and has one. -/
def World.stored (w : World) (object : ObjectId) (y : String) : Option Value :=
  (w.objects.get? object).bind (·.value? y)

/-! ### Taking back an assignment -/

/-- The object with a variable as it was. -/
def Object.restored (ob : Object) (y : String) : Option Value → Object
  | some x => ob.set y x
  | none => ob.unset y

theorem Object.value?_restored (ob : Object) (y : String) (previous : Option Value) (z : String) :
    (ob.restored y previous).value? z = if z = y then previous else ob.value? z := by
  cases previous with
  | some x => exact NameMap.find?_insert ob.vars y z x
  | none => exact NameMap.find?_erase ob.vars y z

/-- Taking back an assignment changes one object. -/
theorem World.after_restore (w : World) (object : ObjectId) (y : String)
    (previous : Option Value) :
    w.after (Undo.restore object y previous).event =
      { w with objects := w.objects.update object (·.restored y previous) } := by
  cases previous <;> rfl

/-- Taking back an assignment changes nothing but the variables of that object. -/
theorem World.get?_after_restore (hob : w.objects.get? object = some ob) (y : String)
    (previous : Option Value) :
    (∃ vars, (w.after (Undo.restore object y previous).event).objects.get? object =
      some { ob with vars := vars }) ∧
    ∀ k, k ≠ object → (w.after (Undo.restore object y previous).event).objects.get? k =
      w.objects.get? k := by
  have hid : ob.id = object := ObjectTable.id_of_get? hob
  rw [World.after_restore]
  refine ⟨⟨(ob.restored y previous).vars, ?_⟩, fun k hk => ?_⟩
  · rw [ObjectTable.get?_update, if_pos rfl, hob, ← hid]
    cases previous <;> rfl
  · rw [ObjectTable.get?_update, if_neg hk]

/-- A variable that is taken back is what it was, and the others are as they were. -/
theorem World.stored_after_restore (hob : w.objects.get? object = some ob) (y : String)
    (previous : Option Value) (z : String) :
    (w.after (Undo.restore object y previous).event).stored object z =
      if z = y then previous else w.stored object z := by
  rw [World.after_restore]
  unfold World.stored
  rw [ObjectTable.get?_update, if_pos rfl, hob]
  exact ob.value?_restored y previous z

/-! ### What a call leaves -/

section

variable {enter : Enter} {x : Value} {e : DispatchError} {s u t : State}

/-- **An assignment whose hook fails is taken back**, as long as the object lives, and the
error says which variable it was. -/
theorem assignOption_apply_of_hook_fails {code : Expr} (hhook : v.hook = some code)
    (hob : u.world.objects.get? object = some ob)
    (hrun : enter (v.hookFrame object) (.hook v code) []
      (u.after (.assigned object v.fullName x)) = (.failure e, t))
    (hlive : (t.world.objects.get? object).isSome) :
    assignOption enter object v x u =
      (.failure (.hook v.fullName e),
        t.after (Undo.restore object v.fullName (ob.value? v.fullName)).event) := by
  have hattempt : Run.attempt (enter (v.hookFrame object) (.hook v code) [])
      (u.after (.assigned object v.fullName x)) = (.value (.error e), t) := by
    rw [Run.attempt_apply, hrun]
  have hevents : (Undo.restore object v.fullName (ob.value? v.fullName)).events t.world =
      [(Undo.restore object v.fullName (ob.value? v.fullName)).event] := if_pos hlive
  unfold assignOption
  rw [Run.look_bind_of_ok (World.objectAt_eq hob), Run.bind_apply, Run.happen_apply, hhook]
  show (Run.attempt (enter (v.hookFrame object) (.hook v code) []) >>= fun _ => _) _ = _
  rw [Run.bind_apply, hattempt]
  show (restore object v.fullName (ob.value? v.fullName) >>= fun _ => _) t = _
  rw [Run.bind_apply, restore_apply, hevents]
  rfl

/-- In the frame of a call that begins in the state `s`, the pairs `earlier` are assigned,
up to the state `u`; the next pair assigns `x` to the variable that `token` names, and
the hook fails with the error `e` in the state `t`. -/
structure FailsInHook (enter : Enter) (c : Class) (object : ObjectId)
    (earlier : List (Value × Value)) (token x : Value) (v : Variable) (e : DispatchError)
    (s u t : State) : Prop where
  earlier : assignOptions enter c object (optionArguments earlier) s = (.value (), u)
  option : c.Offers token.text v
  live : (u.world.objects.get? object).isSome
  hook : ∃ code, v.hook = some code ∧ enter (v.hookFrame object) (.hook v code) []
    (u.after (.assigned object v.fullName x)) = (.failure e, t)

variable {earlier : List (Value × Value)} {token : Value}

/-- After a pair whose hook fails, nothing more is done for the arguments that follow. -/
theorem FailsInHook.assignOptions_apply
    (h : FailsInHook enter c object earlier token x v e s u t)
    (hlive : (t.world.objects.get? object).isSome) (later : List Value) :
    assignOptions enter c object (optionArguments earlier ++ token :: x :: later) s =
      (.failure (.hook v.fullName e),
        t.after (Undo.restore object v.fullName (u.world.stored object v.fullName)).event) := by
  obtain ⟨code, hhook, hrun⟩ := h.hook
  obtain ⟨ob, hob⟩ := Option.isSome_iff_exists.mp h.live
  obtain ⟨entry, hentry, rfl⟩ := Class.offers_iff.mp h.option
  have hstored : u.world.stored object entry.var.fullName = ob.value? entry.var.fullName := by
    rw [World.stored, hob, Option.bind_some]
  rw [assignOptions_append enter c object (even_length_optionArguments earlier), Run.bind_apply,
    h.earlier]
  simp only [assignOptions]
  rw [hentry]
  show (assignOption enter object entry.var x >>= fun _ => _) u = _
  rw [Run.bind_apply, assignOption_apply_of_hook_fails hhook hob hrun hlive, hstored]

end

/-- **What a failing hook leaves of the assignments**, for every object of a plain class
that has the builtin `configure`, and for every hook, whatever it does and however it
comes to fail, as long as the object lives when it has failed.

The call fails with an error that names the variable and holds the error of the hook, and
it ends in the same state whatever arguments follow the pair, so none of them has been
looked at.  Compared with the state `t` in which the hook has failed, two things are
different: the frame of the call is left, and the variable is stored as it was in the
state `u`, just before the pair, or is unset if it was unset. -/
theorem configure_restores_option {o : EngineOptions} {w : World} (hw : Session.Reachable o w)
    {object : ObjectId} {ob : Object} {c : Class} (hob : w.objects.get? object = some ob)
    (hc : w.registry.get? ob.cls = some c) (hplain : c.flags.plain) {f : MemberFunction}
    (hf : c.resolveFunction? Builtin.configure.name = some f)
    (hbody : f.body = .builtin .configure) (hroom : w.stack.depth < w.stack.limit)
    (loads frames : Nat) (journal : List Event) {earlier : List (Value × Value)}
    {token x : Value} {v : Variable} {e : DispatchError} {u t : State}
    (hfails : FailsInHook (enterFrame (runCode loads frames)) c object earlier token x v e
      (State.after { world := w, journal := journal }
        (.entered (builtinFrame f object .configure) (.body f))) u t)
    (hlive : (t.world.objects.get? object).isSome) :
    ∃ t' : State,
      (∀ later, invoke (enterFrame (runCode loads (frames + 1))) object "configure"
        (optionArguments earlier ++ token :: x :: later) { world := w, journal := journal } =
          (.failure (.hook v.fullName e), t')) ∧
      t'.world.stored object v.fullName = u.world.stored object v.fullName ∧
      (∀ y, y ≠ v.fullName → t'.world.stored object y = t.world.stored object y) ∧
      (∃ vars, t'.world.objects.get? object =
        (t.world.objects.get? object).map ({ · with vars := vars })) ∧
      (∀ k, k ≠ object → t'.world.objects.get? k = t.world.objects.get? k) ∧
      t'.world = { t.world with objects := t'.world.objects, stack := t.world.stack.pop } := by
  have hr := hw.built
  obtain ⟨ob', hob'⟩ := Option.isSome_iff_exists.mp hlive
  refine ⟨(t.after (Undo.restore object v.fullName (u.world.stored object v.fullName)).event).after
    (.left (some (.hook v.fullName e))), fun later => ?_, ?_, ?_, ?_, ?_, ?_⟩
  · have hargs : 2 ≤ (optionArguments earlier ++ token :: x :: later).length := by
      simp only [List.length_append, List.length_cons]
      omega
    have hcall := invoke_configure_apply (s := { world := w, journal := journal }) hob hc hplain hf
      hbody (hr.of_body_eq_builtin hc hf hbody) hroom loads frames hargs
    rw [hfails.assignOptions_apply hlive later] at hcall
    exact hcall
  · exact (World.stored_after_restore hob' _ _ _).trans (if_pos rfl)
  · exact fun y hy => (World.stored_after_restore hob' _ _ y).trans (if_neg hy)
  · obtain ⟨vars, hvars⟩ := (World.get?_after_restore hob' v.fullName _).1
    exact ⟨vars, hvars.trans (by rw [hob']; rfl)⟩
  · exact (World.get?_after_restore hob' v.fullName _).2
  · cases u.world.stored object v.fullName <;> rfl

/-- Defines a class with two options, one of which has a hook that sets both and then
fails, and creates an object. -/
def hooked : Expr :=
  .sequence [
    .defineClass
      { name := "Dial"
        members := [.var "mode" .pub none,
          .option "level" (some (.int 3))
            (.sequence [
              .invoke none (.const (.str "configure"))
                [.const (.str "-mode"), .const (.str "manual")],
              .unsetVar (.const (.str "level")),
              .raise .script (.const (.str "too high"))])] },
    .create (some (.const (.str "Dial"))) (.const (.str "d")) []]

/-- The world after the definition of the class and the creation of the object. -/
def hookedWorld : World := (Session.step 0 (World.initial {}) hooked).2.world

theorem hookedWorld_reachable : Session.Reachable {} hookedWorld :=
  (Session.Between.next hooked .start (by decide +kernel)).reachable

/-- The class of the object. -/
def dial : Class := (hookedWorld.registry.get? ⟨0⟩).get (by decide +kernel)

/-- Its builtin `configure`. -/
def dialConfigure : MemberFunction :=
  (dial.resolveFunction? Builtin.configure.name).get (by decide +kernel)

/-- What is found for its option with a hook. -/
def dialLevel : VarLookup := (findOption dial "-level").toOption.get (by decide +kernel)

/-- The hook. -/
def dialHook : Expr := dialLevel.var.hook.get (by decide +kernel)

/-- The state in which the frame of a call of `configure` has been entered. -/
def dialCall : State :=
  State.after { world := hookedWorld }
    (.entered (builtinFrame dialConfigure ⟨1⟩ .configure) (.body dialConfigure))

/-- An assignment before the one that fails. -/
def dialRun : Outcome Unit × State :=
  assignOptions (enterFrame (runCode 0 2)) dial ⟨1⟩
    (optionArguments [(.str "-mode", .str "auto")]) dialCall

/-- The run of the hook after the next assignment. -/
def dialHookRun : Outcome Value × State :=
  enterFrame (runCode 0 2) (dialLevel.var.hookFrame ⟨1⟩) (.hook dialLevel.var dialHook) []
    (dialRun.2.after (.assigned ⟨1⟩ dialLevel.var.fullName (.int 9)))

/-- The hook has unset its own variable and set the other one: the first is taken back, the
second is not. -/
theorem configure_restores_level :
    ∃ e t', (∀ later, invoke (enterFrame (runCode 0 3)) ⟨1⟩ "configure"
        ([.str "-mode", .str "auto", .str "-level", .int 9] ++ later) { world := hookedWorld } =
          (.failure (.hook "::Dial::level" e), t')) ∧
      (dialHookRun.2.world.stored ⟨1⟩ "::Dial::level").map (·.text) = none ∧
      (t'.world.stored ⟨1⟩ "::Dial::level").map (·.text) = some "3" ∧
      (t'.world.stored ⟨1⟩ "::Dial::mode").map (·.text) = some "manual" := by
  have hobject : (hookedWorld.objects.get? ⟨1⟩).map (·.cls) = some ⟨0⟩ := by decide +kernel
  obtain ⟨ob, hob, hcls⟩ := Option.map_eq_some_iff.mp hobject
  have hc : hookedWorld.registry.get? ob.cls = some dial := by
    rw [hcls]
    exact (Option.some_get _).symm
  have hf : dial.resolveFunction? Builtin.configure.name = some dialConfigure :=
    (Option.some_get _).symm
  have hconfigure : dial.HasBuiltin .configure := by decide +kernel
  obtain ⟨f, hf', hbody⟩ := hconfigure.exists_body_eq
  obtain rfl : dialConfigure = f := Option.some.inj (hf.symm.trans hf')
  have hsucceeds : dialRun.1 = .value () := by decide +kernel
  have hrun : dialRun = (.value (), dialRun.2) := by rw [← hsucceeds]
  obtain ⟨e, hfails⟩ : ∃ e, dialHookRun.1 = .failure e :=
    Outcome.exists_of_isFailure (by decide +kernel)
  have hhook : dialHookRun = (.failure e, dialHookRun.2) := by rw [← hfails]
  have hfull : dialLevel.var.fullName = "::Dial::level" := by decide +kernel
  have hfails : FailsInHook (enterFrame (runCode 0 2)) dial ⟨1⟩ [(.str "-mode", .str "auto")]
      (.str "-level") (.int 9) dialLevel.var e dialCall dialRun.2 dialHookRun.2 :=
    { earlier := hrun
      option := Class.offers_of_toOption (Option.some_get _).symm
      live := by decide +kernel
      hook := ⟨dialHook, (Option.some_get _).symm, hhook⟩ }
  obtain ⟨t', hcall, hlevel, hothers, -⟩ := configure_restores_option hookedWorld_reachable hob hc
    (by decide +kernel) hf hbody (by decide +kernel) 0 2 [] hfails (by decide +kernel)
  rw [hfull] at hcall hlevel hothers
  refine ⟨e, t', hcall, by decide +kernel, ?_, ?_⟩
  · rw [hlevel]
    decide +kernel
  · rw [hothers _ (by decide)]
    decide +kernel

end ObjectDispatch
