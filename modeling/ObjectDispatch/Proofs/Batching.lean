import ObjectDispatch.Proofs.Calls
import ObjectDispatch.Proofs.Configuration
import ObjectDispatch.Proofs.Frames

/-!
# Options set in one call or in two

A call of `configure` assigns all its pairs in one frame, and it looks up the class of
the object once.  Two calls enter a frame each, and the second looks the class up again,
after the hooks of the first have run.  Nobody can tell the difference: the frame that is
left and entered again is the same, an object keeps its class as long as it lives, and
nothing that a run does depends on what has been recorded before it.

The pairs of the first call must be complete, because a value that is missing at the end
of one call is not the same as one that is given at the beginning of the next.

## Main definitions

* `Run.Uniform` — a run that does not depend on what has happened before.
* `Run.SameEnd` — two ends of runs that differ at most in what was entered and left.

## Main results

* `runCode_uniform` — no code depends on what has happened before.
* `configure_append` — **one call of `configure` does what two do.**
-/

namespace ObjectDispatch

/-! ### Runs and what has happened before them -/

namespace Run

variable {α β : Type}

/-- What the run does from a world on does not depend on what has happened before: it ends
in one way, and it puts the same events in front of every journal. -/
def Uniform (r : Run α) : Prop :=
  ∀ w, ∃ out w' es, ∀ journal,
    r { world := w, journal := journal } = (out, { world := w', journal := es ++ journal })

theorem uniform_bind {r : Run α} {f : α → Run β} (hr : r.Uniform) (hf : ∀ a, (f a).Uniform) :
    (r >>= f).Uniform := by
  intro w
  obtain ⟨out, w', es, hrun⟩ := hr w
  cases out with
  | value a =>
    obtain ⟨out', w'', es', hrun'⟩ := hf a w'
    refine ⟨out', w'', es' ++ es, fun journal => ?_⟩
    rw [bind_apply, hrun, List.append_assoc]
    exact hrun' (es ++ journal)
  | failure e => exact ⟨.failure e, w', es, fun journal => by rw [bind_apply, hrun]⟩
  | exhausted => exact ⟨.exhausted, w', es, fun journal => by rw [bind_apply, hrun]⟩

theorem uniform_attempt {r : Run α} (hr : r.Uniform) : (attempt r).Uniform := by
  intro w
  obtain ⟨out, w', es, hrun⟩ := hr w
  cases out with
  | value a => exact ⟨.value (.ok a), w', es, fun journal => by rw [attempt_apply, hrun]⟩
  | failure e => exact ⟨.value (.error e), w', es, fun journal => by rw [attempt_apply, hrun]⟩
  | exhausted => exact ⟨.exhausted, w', es, fun journal => by rw [attempt_apply, hrun]⟩

theorem uniform_happen (e : Event) : (happen e).Uniform :=
  fun w => ⟨.value (), w.after e, [e], fun _ => rfl⟩

theorem uniform_law : Run.Law Uniform where
  pure a w := ⟨.value a, w, [], fun _ => rfl⟩
  fail e w := ⟨.failure e, w, [], fun _ => rfl⟩
  exhaust w := ⟨.exhausted, w, [], fun _ => rfl⟩
  world w := ⟨.value w, w, [], fun _ => rfl⟩
  look g w := by
    cases hg : g w with
    | ok a => exact ⟨.value a, w, [], fun _ => by rw [look_apply]; simp only [hg]; rfl⟩
    | error e => exact ⟨.failure e, w, [], fun _ => by rw [look_apply]; simp only [hg]; rfl⟩
  bind := uniform_bind
  attempt := uniform_attempt

end Run

theorem uniform_localLaw : LocalLaw Run.Uniform where
  toLaw := Run.uniform_law
  happen e _ := Run.uniform_happen e
  defineClass d := by
    have h := Run.uniform_law
    unfold defineClass
    exact h.bind (h.look _) fun _ => h.bind (Run.uniform_happen _) fun _ => h.pure _
  enterFrame hrun f a args := by
    have h := Run.uniform_law
    unfold enterFrame
    refine h.bind h.world fun w => ?_
    split
    · exact h.bind (Run.uniform_happen _) fun _ => h.fail _
    · refine h.bind (Run.uniform_happen _) fun _ => h.bind (h.attempt (hrun _ _)) fun _ => ?_
      exact h.bind (Run.uniform_happen _) fun _ => h.answer _

theorem createObject_uniform {run : Code → List Value → Run Value}
    (hrun : ∀ c args, (run c args).Uniform) (cls : ClassId) (name : String)
    (args : List Value) : (createObject (enterFrame run) cls name args).Uniform := by
  have h := uniform_localLaw
  unfold createObject
  refine h.bind (h.look _) fun c => h.bind h.world fun w => ?_
  split
  · exact h.fail _
  · split
    · exact h.fail _
    · refine h.bind (Run.uniform_happen _) fun _ => ?_
      refine h.bind ((h.frameLaw hrun).assignments.initializeVariables _ _) fun _ => ?_
      refine h.bind (Run.uniform_happen _) fun _ => ?_
      refine h.bind (h.attempt (h.constructClass hrun _ _ _ _)) fun result => ?_
      refine h.bind (Run.uniform_happen _) fun _ => ?_
      split
      · exact h.pure _
      · exact h.bind ((h.frameLaw hrun).callLaw.removeObject _) fun _ => h.fail _

/-- No code depends on what has happened before. -/
theorem runCode_uniform (loads frames : Nat) (c : Code) (args : List Value) :
    (runCode loads frames c args).Uniform :=
  (uniform_localLaw.toEvaluationLaw createObject_uniform).runCode loads frames c args

/-- Two runs have ended in the same way and in the same world, and they have written the same
to the log. -/
structure Run.SameEnd {α : Type} (x y : Outcome α × State) : Prop where
  outcome : x.1 = y.1
  world : x.2.world = y.2.world
  log : Session.logged x.2.journal.reverse = Session.logged y.2.journal.reverse

theorem Run.SameEnd.refl {α : Type} (x : Outcome α × State) : Run.SameEnd x x := ⟨rfl, rfl, rfl⟩

/-- What is recorded between what has happened and what happens next is not seen in the
end, if it writes nothing to the log. -/
theorem Session.logged_journal_eq (es fs journal : List Event) (hfs : logged fs = []) :
    logged (es ++ (fs ++ journal)).reverse = logged (es ++ journal).reverse := by
  have hfs' : logged fs.reverse = [] := by
    unfold logged at hfs ⊢
    rw [List.filterMap_reverse, hfs, List.reverse_nil]
  unfold logged at hfs' ⊢
  simp only [List.reverse_append, List.filterMap_append, hfs', List.append_nil]

/-! ### Assignments of options -/

section

variable {o : EngineOptions} {w : World} {object : ObjectId} {ob : Object} {c : Class}
variable {s u : State} {f : MemberFunction} {loads frames : Nat} {args ps qs : List Value}

/-- Where the frame of a call does not fit, or no frame was granted to run in, it does not
matter which options the call is to set. -/
theorem exists_invoke_configure_eq (hob : s.world.objects.get? object = some ob)
    (hc : s.world.registry.get? ob.cls = some c)
    (hf : c.resolveFunction? Builtin.configure.name = some f)
    (hbuiltin : f.protection = .pub ∧ f.flags = { isBuiltin := true }) (loads : Nat)
    (hnot : ¬ s.world.stack.depth < s.world.stack.limit ∨ frames = 0) :
    ∃ t, ∃ out : Outcome Value, (∀ x, out ≠ .value x) ∧ ∀ args,
      invoke (enterFrame (runCode loads frames)) object "configure" args s = (out, t) := by
  have hcall (args : List Value) :=
    invoke_builtin_eq hob hc hf hbuiltin (enterFrame (runCode loads frames)) args
  by_cases hroom : s.world.stack.depth < s.world.stack.limit
  · obtain rfl := hnot.resolve_left (not_not_intro hroom)
    refine ⟨s.after (.entered (builtinFrame f object .configure) (.body f)), .exhausted, nofun,
      fun args => (hcall args).trans ?_⟩
    rw [enterFrame_apply, if_neg (by omega)]
    rfl
  · refine ⟨s.after (.refused (builtinFrame f object .configure) (.body f)),
      .failure (.usage .tooDeep), nofun, fun args => (hcall args).trans ?_⟩
    rw [enterFrame_apply, if_pos (by omega)]

/-- Assignments leave the frames as they were. -/
theorem stack_of_assignOptions
    (hrun : assignOptions (enterFrame (runCode loads frames)) c object args s = (.value (), u)) :
    u.world.stack = s.world.stack := by
  have hkeeps := ((keepsFrames_localLaw.frameLaw fun c args =>
    (keepsFrames_localLaw.toEvaluationLaw createObject_keepsFrames).runCode loads frames c
      args).assignOptions c object args) s
  rw [hrun] at hkeeps
  exact (hkeeps nofun).1

/-- After assignments an object that lives is of the class it was. -/
theorem get?_cls_of_assignOptions (hobject : object.number ≤ s.world.objects.created)
    (hob : s.world.objects.get? object = some ob) (hc : s.world.registry.get? ob.cls = some c)
    (hrun : assignOptions (enterFrame (runCode loads frames)) c object args s = (.value (), u))
    {ob' : Object} (hob' : u.world.objects.get? object = some ob') :
    u.world.registry.get? ob'.cls = some c := by
  obtain ⟨es, -, hend⟩ := ((follows_localLaw.frameLaw (runCode_follows loads frames)).assignOptions
    c object args) s
  rw [hrun] at hend
  have hleads := World.leadsTo_replay s.world es
  rw [← State.world_foldl_after, ← hend] at hleads
  exact hleads.classes hobject (World.classes_of_get? hob hc) ob' hob'

/-- **A call that follows assignments goes on with them**: it makes no difference that the
frame is left and entered again in between. -/
theorem sameEnd_of_assignOptions (hobject : object.number ≤ s.world.objects.created)
    (hob : s.world.objects.get? object = some ob) (hc : s.world.registry.get? ob.cls = some c)
    (hplain : c.flags.plain) (hf : c.resolveFunction? Builtin.configure.name = some f)
    (hbody : f.body = .builtin .configure)
    (hbuiltin : f.protection = .pub ∧ f.flags = { isBuiltin := true })
    (hroom : s.world.stack.depth < s.world.stack.limit)
    (hrun : assignOptions (enterFrame (runCode loads frames)) c object ps
      (s.after (.entered (builtinFrame f object .configure) (.body f))) = (.value (), u))
    (hlive : (u.world.objects.get? object).isSome) (hqs : 2 ≤ qs.length) :
    Run.SameEnd (endConfigure (assignOptions (enterFrame (runCode loads frames)) c object qs u))
      (invoke (enterFrame (runCode loads (frames + 1))) object "configure" qs
        (u.after (.left none))) := by
  obtain ⟨ob', hob'⟩ := Option.isSome_iff_exists.mp hlive
  have hc' := get?_cls_of_assignOptions
    (s := s.after (.entered (builtinFrame f object .configure) (.body f))) hobject hob hc hrun hob'
  have hstack : u.world.stack = s.world.stack.entered (builtinFrame f object .configure) :=
    stack_of_assignOptions hrun
  -- the frame that is entered again is the one that was left
  have hpop : u.world.stack.pop = s.world.stack := by rw [hstack, CallStack.pop_entered]
  have hagain : (u.world.after (.left none)).after
      (.entered (builtinFrame f object .configure) (.body f)) = u.world := by
    have hframes : u.world.stack.pop.entered (builtinFrame f object .configure) =
        u.world.stack := by rw [hpop, ← hstack]
    exact congrArg (fun stack => { u.world with stack := stack }) hframes
  have hcall := invoke_configure_apply (s := u.after (.left none)) hob' hc' hplain hf hbody
    hbuiltin (by show u.world.stack.pop.depth < u.world.stack.pop.limit; rw [hpop]; exact hroom)
    loads frames hqs
  obtain ⟨out, w', es, huniform⟩ := ((uniform_localLaw.frameLaw
    (runCode_uniform loads frames)).assignOptions c object qs) u.world
  have hone : assignOptions (enterFrame (runCode loads frames)) c object qs u = _ :=
    huniform u.journal
  have htwo : assignOptions (enterFrame (runCode loads frames)) c object qs
      ((u.after (.left none)).after (.entered (builtinFrame f object .configure) (.body f))) =
      (out, { world := w', journal := es ++ ([.entered (builtinFrame f object .configure) (.body f),
        .left none] ++ u.journal) }) := by
    rw [← huniform]
    exact congrArg (fun v => assignOptions _ c object qs { world := v, journal := _ }) hagain
  have hlog (es : List Event) := Session.logged_journal_eq es
    [.entered (builtinFrame f object .configure) (.body f), .left none] u.journal rfl
  rw [hcall, htwo, hone]
  cases out with
  | value => exact ⟨rfl, rfl, (hlog (.left none :: es)).symm⟩
  | failure e => exact ⟨rfl, rfl, (hlog (.left (some e) :: es)).symm⟩
  | exhausted => exact ⟨rfl, rfl, (hlog es).symm⟩

end

/-- **One call of `configure` does what two do**, for every live object of a plain class
that has the builtin `configure`, in every state, and whatever the hooks do, as long as
the object lives when the first of two calls has succeeded.

The first call has complete pairs, the arguments of the second are any two or more, with
unknown options or a missing value among them.  When the first call fails, the second is
not made, and the one call fails in the same way. -/
theorem configure_append {o : EngineOptions} {w : World} (hw : Session.Reachable o w)
    {object : ObjectId} {ob : Object} {c : Class} (hob : w.objects.get? object = some ob)
    (hc : w.registry.get? ob.cls = some c) (hplain : c.flags.plain)
    (hconfigure : c.HasBuiltin .configure) (loads frames : Nat) (journal : List Event)
    {ps qs : List Value} (hps : Even ps.length) (hps' : 2 ≤ ps.length) (hqs : 2 ≤ qs.length) :
    let call := invoke (enterFrame (runCode loads frames)) object "configure"
    let s : State := { world := w, journal := journal }
    (∀ x t, call ps s = (.value x, t) → (t.world.objects.get? object).isSome) →
    Run.SameEnd (call (ps ++ qs) s) ((call ps >>= fun _ => call qs) s) := by
  intro call s hlive
  have hr := hw.built
  obtain ⟨f, hf, hbody⟩ := hconfigure.exists_body_eq
  have hbuiltin := hr.of_body_eq_builtin hc hf hbody
  -- where the first call fails, it is enough that the one call ends in the same way
  have hfailing {out : Outcome Value} {t : State} (hone : call (ps ++ qs) s = (out, t))
      (hfirst : call ps s = (out, t)) (hout : ∀ x, out ≠ .value x) :
      Run.SameEnd (call (ps ++ qs) s) ((call ps >>= fun _ => call qs) s) := by
    rw [hone, Run.bind_apply, hfirst]
    cases out with
    | value x => exact absurd rfl (hout x)
    | failure | exhausted => exact .refl _
  by_cases hnot : ¬ w.stack.depth < w.stack.limit ∨ frames = 0
  · obtain ⟨t, out, hout, hcall⟩ :=
      exists_invoke_configure_eq (s := s) hob hc hf hbuiltin loads hnot
    exact hfailing (hcall _) (hcall _) hout
  obtain ⟨hroom, hframes⟩ := not_or.mp hnot
  have hroom := not_not.mp hroom
  obtain ⟨n, rfl⟩ : ∃ n, frames = n + 1 := Nat.exists_eq_succ_of_ne_zero hframes
  have hcall {args : List Value} (hargs : 2 ≤ args.length) : call args s = _ :=
    invoke_configure_apply (s := s) hob hc hplain hf hbody hbuiltin hroom loads n hargs
  have hfirst := hcall hps'
  have hone : call (ps ++ qs) s = _ := hcall (by rw [List.length_append]; omega)
  rw [assignOptions_append _ c object hps, Run.bind_apply] at hone
  cases hrun : assignOptions (enterFrame (runCode loads n)) c object ps
      (s.after (.entered (builtinFrame f object .configure) (.body f))) with
  | mk out u =>
    rw [hrun] at hone hfirst
    cases out with
    | value =>
      have htwo : (call ps >>= fun _ => call qs) s = call qs (u.after (.left none)) := by
        rw [Run.bind_apply, hfirst]
        rfl
      rw [hone, htwo]
      exact sameEnd_of_assignOptions (hw.sound.allocated _ _ hob) hob hc hplain hf hbody hbuiltin
        hroom hrun (hlive Value.empty (u.after (.left none)) hfirst) hqs
    | failure | exhausted => exact hfailing hone hfirst nofun

/-- Defines a class with an option whose hook writes to the log, installs a delegate and
defines a class, and creates an object. -/
def paneled : Expr :=
  .sequence [
    .defineClass
      { name := "Panel"
        members := [.var "size" .pub none,
          .option "color" none
            (.sequence [
              .log (.getVar (.const (.str "color"))),
              .setDelegate .arguments,
              .defineClass { name := "Painted", inherits := ["Panel"] }])] },
    .create (some (.const (.str "Panel"))) (.const (.str "p")) []]

/-- The world after the definition of the class and the creation of the object. -/
def paneledWorld : World := (Session.step 0 (World.initial {}) paneled).2.world

theorem paneledWorld_reachable : Session.Reachable {} paneledWorld :=
  (Session.Between.next paneled .start (by decide +kernel)).reachable

/-- Sets options of the object. -/
def paneledCall (args : List Value) : Run Value :=
  invoke (enterFrame (runCode 0 3)) ⟨1⟩ "configure" args

/-- What one call is to set. -/
def firstColor : List Value := [.str "-color", .str "red"]

/-- What the next call is to set: the hook fails for the second color, because the class has
been defined. -/
def nextColor : List Value := [.str "-size", .int 2, .str "-color", .str "blue", .str "-size"]

/-- Both ways the second hook fails after both have written to the log. -/
theorem configure_append_colors :
    Run.SameEnd (paneledCall (firstColor ++ nextColor) { world := paneledWorld })
        ((paneledCall firstColor >>= fun _ => paneledCall nextColor) { world := paneledWorld }) ∧
      (paneledCall (firstColor ++ nextColor) { world := paneledWorld }).1.isFailure = true ∧
      (Session.logged (paneledCall (firstColor ++ nextColor)
        { world := paneledWorld }).2.journal.reverse).map (·.text) = ["red", "blue"] := by
  have hobject : (paneledWorld.objects.get? ⟨1⟩).map (·.cls) = some ⟨0⟩ := by decide +kernel
  have hclass : (paneledWorld.registry.get? ⟨0⟩).map (fun c =>
      decide (c.HasBuiltin .configure ∧ c.flags.plain)) = some true := by decide +kernel
  obtain ⟨ob, hob, hcls⟩ := Option.map_eq_some_iff.mp hobject
  obtain ⟨c, hc, hparts⟩ := Option.map_eq_some_iff.mp hclass
  obtain ⟨hconfigure, hplain⟩ := of_decide_eq_true hparts
  rw [← hcls] at hc
  have hlive : ((paneledCall firstColor { world := paneledWorld }).2.world.objects.get?
      ⟨1⟩).isSome = true := by decide +kernel
  refine ⟨configure_append paneledWorld_reachable hob hc hplain hconfigure 0 3 [] (by decide)
    (by decide) (by decide) fun x t hcall => ?_, by decide +kernel, by decide +kernel⟩
  have hfirst : paneledCall firstColor { world := paneledWorld } = (.value x, t) := hcall
  rw [hfirst] at hlive
  exact hlive

end ObjectDispatch
