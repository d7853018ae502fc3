import ObjectDispatch.Proofs.AccessNames
import ObjectDispatch.Proofs.History

/-!
# How variables are written

The values of an object are kept under the full names of variables, and they are
written in five places: running code sets and unsets variables, options are assigned
and set back when a hook fails, a component is bound, and a new object gets its initial
values.  Each of them writes only where it has found a variable before: one that the
code may use, an option of the object, the variable that keeps a component, or one of
the heritage of the new object's class.

That is a condition on events, each in the world in which it happens.  For runs the
condition is compositional, so it is shown for the five places and carried through all
evaluation; what the runs in between do to the world is known from the events.

## Main definitions

* `Run.Observes` — a run that lets only events happen that a condition allows.
* `World.AllowsWrite` — the condition on the events that write variables.

## Main results

* `evaluate_observes` — every evaluation observes the condition.
* `Session.Stretch.each_allowsWrite` — **so does every part of a session.**
-/

namespace ObjectDispatch

/-! ### Runs that observe a condition on events -/

namespace Run

variable {α β : Type} {A : World → Event → Prop} {s : State}

/-- From the state `s` on, each event of the run can happen in the world in which it
happens, and `A` allows it there. -/
def ObservesFrom (A : World → Event → Prop) (r : Run α) (s : State) : Prop :=
  ∃ es, s.world.AdmitsAll es ∧ s.world.Each A es ∧ (r s).2 = es.foldl State.after s

/-- From every state on that has a sound world. -/
def Observes (A : World → Event → Prop) (r : Run α) : Prop :=
  ∀ s, s.world.Sound → r.ObservesFrom A s

theorem observesFrom_of_state {r : Run α} (h : (r s).2 = s) : r.ObservesFrom A s :=
  ⟨[], trivial, trivial, h⟩

/-- What comes later begins in a sound world again, and keeps what time keeps. -/
theorem observesFrom_bind {r : Run α} {f : α → Run β} (hs : s.world.Sound)
    (hr : r.ObservesFrom A s)
    (hf : ∀ a t, t.world.Sound → s.world.LeadsTo t.world → (f a).ObservesFrom A t) :
    (r >>= f).ObservesFrom A s := by
  obtain ⟨es, hes, heach, hend⟩ := hr
  have hsound := hs.replay hes
  have hleads := s.world.leadsTo_replay es
  unfold ObservesFrom
  rw [bind_apply]
  cases hrun : r s with
  | mk out t =>
    rw [hrun] at hend
    simp only at hend
    cases out with
    | value a =>
      have hworld : t.world = s.world.replay es := by rw [hend, State.world_foldl_after]
      rw [← hworld] at hsound hleads
      obtain ⟨fs, hfs, heach', hend'⟩ := hf a t hsound hleads
      rw [hworld] at hfs heach'
      refine ⟨es ++ fs, World.admitsAll_append.mpr ⟨hes, hfs⟩,
        World.each_append.mpr ⟨heach, heach'⟩, ?_⟩
      rw [List.foldl_append, ← hend]
      exact hend'
    | failure e => exact ⟨es, hes, heach, hend⟩
    | exhausted => exact ⟨es, hes, heach, hend⟩

theorem observesFrom_look_bind {g : World → Except DispatchError α} {f : α → Run β}
    (hf : ∀ a, g s.world = .ok a → (f a).ObservesFrom A s) : (look g >>= f).ObservesFrom A s := by
  cases hg : g s.world with
  | ok a =>
    unfold ObservesFrom
    rw [look_bind_of_ok hg]
    exact hf a hg
  | error e => exact observesFrom_of_state (by rw [look_bind_of_error hg])

theorem observesFrom_answer_bind {a : Except DispatchError α} {f : α → Run β}
    (hf : ∀ x, a = .ok x → (f x).ObservesFrom A s) : (answer a >>= f).ObservesFrom A s := by
  cases a with
  | ok x => exact hf x rfl
  | error e => exact observesFrom_of_state rfl

theorem observesFrom_world_bind {f : World → Run β} (hf : (f s.world).ObservesFrom A s) :
    (world >>= f).ObservesFrom A s := hf

theorem observesFrom_happen {e : Event} (he : s.world.Admits e) (hA : A s.world e) :
    (happen e).ObservesFrom A s :=
  ⟨[e], ⟨he, trivial⟩, ⟨hA, trivial⟩, rfl⟩

theorem observesFrom_happen_bind {e : Event} {f : Unit → Run β} (he : s.world.Admits e)
    (hA : A s.world e) (hf : (f ()).ObservesFrom A (s.after e)) :
    (happen e >>= f).ObservesFrom A s := by
  obtain ⟨es, hes, heach, hend⟩ := hf
  exact ⟨e :: es, ⟨he, hes⟩, ⟨hA, heach⟩, hend⟩

theorem observesFrom_attempt {r : Run α} (hr : r.ObservesFrom A s) :
    (attempt r).ObservesFrom A s := by
  obtain ⟨es, hes, heach, hend⟩ := hr
  refine ⟨es, hes, heach, ?_⟩
  rw [attempt_apply]
  cases hrun : r s with
  | mk out t =>
    rw [hrun] at hend
    cases out <;> exact hend

theorem observes_law (A : World → Event → Prop) : Run.Law (Observes A) where
  pure _ _ _ := observesFrom_of_state rfl
  fail _ _ _ := observesFrom_of_state rfl
  exhaust _ _ := observesFrom_of_state rfl
  world _ _ := observesFrom_of_state rfl
  look _ _ _ := observesFrom_of_state (by rw [look_apply])
  bind hr hf s hs := observesFrom_bind hs (hr s hs) fun a t ht _ => hf a t ht
  attempt hr s hs := observesFrom_attempt (hr s hs)

theorem Observes.journal {r : Run α} (h : r.Observes A) {w : World} (hw : w.Sound) :
    w.Each A (r { world := w }).2.journal.reverse := by
  obtain ⟨es, -, heach, hend⟩ := h { world := w } hw
  rw [hend, State.reverse_journal_foldl_after]
  exact heach

end Run

/-- A condition that concerns no events but those that write variables, and that is
observed in the frames, is observed by all that comes with calls. -/
theorem observes_callLaw {A : World → Event → Prop} (hA : ∀ w e, e.write? = none → A w e)
    {run : Code → List Value → Run Value} (hrun : ∀ c args, (run c args).Observes A) :
    CallLaw (enterFrame run) (Run.Observes A) where
  toCompositional := (Run.observes_law A).toCompositional
  happen e he hwrite s _ :=
    Run.observesFrom_happen (s.world.admits_of_isLocal he) (hA s.world e hwrite)
  defineClass d s _ := by
    unfold defineClass
    refine Run.observesFrom_look_bind fun c hc => ?_
    exact Run.observesFrom_happen_bind ⟨d, hc⟩ (hA _ _ rfl) (Run.observesFrom_of_state rfl)
  enterFrame f a args s hs := by
    have hlaw := Run.observes_law A
    unfold enterFrame
    refine Run.observesFrom_world_bind ?_
    split
    · exact Run.observesFrom_happen_bind trivial (hA _ _ rfl) (Run.observesFrom_of_state rfl)
    · next t hpush =>
      have hroom := CallStack.depth_lt_of_push hpush
      have hentered := s.sound_after hs (.entered f a) hroom
      refine Run.observesFrom_happen_bind hroom (hA _ _ rfl) ?_
      refine hlaw.bind (hlaw.attempt (hrun a.code args)) (fun result u hu => ?_) _ hentered
      have hleft := u.sound_after hu (.left (failure? result)) trivial
      exact Run.observesFrom_happen_bind trivial (hA _ _ rfl) (hlaw.answer result _ hleft)

/-! ### The writing of variables -/

/-- How it comes that an event happens, as far as the variable goes that it writes. -/
inductive World.AllowsWrite (w : World) (e : Event) : Prop where
  /-- It writes no variable. -/
  | nothing (he : e.write? = none) : w.AllowsWrite e
  /-- It writes a variable that the running code may use. -/
  | inScope {g : Frame} {o : ObjectId} {c : Class} {n : String} {entry : VarLookup}
      (hg : w.stack.current? = some g) (ho : g.object = some o)
      (hc : w.registry.get? g.scope = some c) (hn : c.resolveVar? n = some entry)
      (haccess : entry.accessible = true) (he : e.write? = some (o, entry.var.fullName)) :
      w.AllowsWrite e
  /-- It writes an option of an object. -/
  | option {o : ObjectId} {ob : Object} {c : Class} {n : String} {entry : VarLookup}
      (hob : w.objects.get? o = some ob) (hc : w.registry.get? ob.cls = some c)
      (hn : c.resolveVar? n = some entry) (hpublic : entry.var.isPublic = true)
      (he : e.write? = some (o, entry.var.fullName)) : w.AllowsWrite e
  /-- It binds a component of an object. -/
  | component {o : ObjectId} {ob : Object} {c : Class} {k : ClassId} {d : Class} {m : Component}
      (hob : w.objects.get? o = some ob) (hc : w.registry.get? ob.cls = some c)
      (hk : k ∈ c.heritage) (hd : w.registry.get? k = some d) (hm : m ∈ d.components.toList)
      (he : e.write? = some (o, m.store)) : w.AllowsWrite e
  /-- It gives a variable its initial value, in an object that no class has begun to
  construct. -/
  | initial {o : ObjectId} {ob : Object} {c : Class} {v : Variable} {x : Value}
      (hob : w.objects.get? o = some ob) (hnew : ob.constructed = [])
      (hc : w.registry.get? ob.cls = some c) (hv : v ∈ w.registry.variablesOf c)
      (hx : v.init = some x) (he : e = .assigned o v.fullName x) : w.AllowsWrite e

/-- The run writes variables only as `World.AllowsWrite` says. -/
abbrev Run.WritesFrom {α : Type} (r : Run α) (s : State) : Prop :=
  r.ObservesFrom World.AllowsWrite s

section

variable {s : State}

theorem setVariable_observes (n : String) (x : Value) :
    (setVariable n x).Observes World.AllowsWrite := by
  intro s _
  unfold setVariable
  refine Run.observesFrom_look_bind fun ⟨o, v⟩ hv => Run.observesFrom_look_bind fun _ _ => ?_
  obtain ⟨g, c, e, hg, ho, hc, hn, haccess, rfl⟩ := World.exists_of_scopedVariable hv
  exact Run.observesFrom_happen trivial (.inScope hg ho hc hn haccess rfl)

theorem unsetVariable_observes (n : String) :
    (unsetVariable n).Observes World.AllowsWrite := by
  intro s _
  unfold unsetVariable
  refine Run.observesFrom_look_bind fun ⟨o, v⟩ hv => Run.observesFrom_look_bind fun _ _ => ?_
  obtain ⟨g, c, e, hg, ho, hc, hn, haccess, rfl⟩ := World.exists_of_scopedVariable hv
  split
  · exact Run.observesFrom_of_state rfl
  · exact Run.observesFrom_happen trivial (.inScope hg ho hc hn haccess rfl)

theorem bindComponent_observes (o : ObjectId) (n : String) (t : ObjectId) :
    (bindComponent o n t).Observes World.AllowsWrite := by
  intro s _
  unfold bindComponent
  refine Run.observesFrom_look_bind fun m hm => ?_
  refine Run.observesFrom_look_bind fun _ _ => Run.observesFrom_look_bind fun _ _ => ?_
  obtain ⟨ob, c, hob, hc, k, hk, d, hd, hmem⟩ := World.exists_of_component hm
  exact Run.observesFrom_happen trivial (.component hob hc hk hd hmem rfl)

/-! ### Initial values -/

/-- Each of the initial values of a new object is one of a variable of its class. -/
theorem World.each_allowsWrite_of_initial {w : World} {o : ObjectId} {ob : Object} {c : Class}
    (hob : w.objects.get? o = some ob) (hnew : ob.constructed = [])
    (hc : w.registry.get? ob.cls = some c) {es : List Event}
    (hes : ∀ e ∈ es, ∃ v ∈ w.registry.variablesOf c, ∃ x, v.init = some x ∧
      e = .assigned o v.fullName x) : w.Each World.AllowsWrite es := by
  induction es generalizing w ob with
  | nil => trivial
  | cons e es ih =>
    rw [List.forall_mem_cons] at hes
    obtain ⟨⟨v, hv, x, hx, rfl⟩, hes⟩ := hes
    -- the object that has the value is as new as the one before
    have hset := get?_after_assigned hob v.fullName x
    exact ⟨.initial hob hnew hc hv hx rfl, ih hset hnew hc hes⟩

theorem Registry.exists_of_mem_heritage_initialValues {r : Registry} {o : ObjectId} {c : Class}
    {e : Event} (he : e ∈ r.initialValues o c.heritage) :
    ∃ v ∈ r.variablesOf c, ∃ x, v.init = some x ∧ e = .assigned o v.fullName x := by
  obtain ⟨d, hd, he⟩ := List.mem_flatMap.mp he
  obtain ⟨v, hv, he⟩ := List.mem_filterMap.mp he
  obtain ⟨x, hx, rfl⟩ := Option.map_eq_some_iff.mp he
  exact ⟨v, List.mem_flatMap.mpr ⟨d, hd, hv⟩, x, hx, rfl⟩

theorem initializeVariables_observes (hs : s.world.Sound) {o : ObjectId} {ob : Object} {c : Class}
    (hob : s.world.objects.get? o = some ob) (hnew : ob.constructed = [])
    (hc : s.world.registry.get? ob.cls = some c) :
    (initializeVariables o c.heritage).WritesFrom s := by
  have hrun := initializeVariables_apply (hs.built.isSome_of_mem_heritage hc) (by rw [hob]; rfl)
  have hvalues : ∀ e ∈ s.world.registry.initialValues o c.heritage,
      ∃ v ∈ s.world.registry.variablesOf c, ∃ x, v.init = some x ∧
        e = .assigned o v.fullName x :=
    fun _ he => Registry.exists_of_mem_heritage_initialValues he
  refine ⟨s.world.registry.initialValues o c.heritage, ?_, ?_, by rw [hrun]⟩
  · refine s.world.admitsAll_of_isLocal fun e he => ?_
    obtain ⟨v, -, x, -, rfl⟩ := hvalues e he
    trivial
  · exact World.each_allowsWrite_of_initial hob hnew hc hvalues

/-! ### Options -/

/-- A variable is set back only in an object that lives. -/
theorem restore_observes {o : ObjectId} {c : Class}
    (hc : ∀ ob, s.world.objects.get? o = some ob → s.world.registry.get? ob.cls = some c)
    {n : String} {e : VarLookup} (hn : c.resolveVar? n = some e) (hpublic : e.var.isPublic = true)
    (previous : Option Value) : (restore o e.var.fullName previous).WritesFrom s := by
  unfold restore
  refine Run.observesFrom_world_bind ?_
  split
  · next hlive =>
    obtain ⟨ob, hob⟩ := Option.isSome_iff_exists.mp hlive
    cases previous with
    | none => exact Run.observesFrom_happen trivial (.option hob (hc ob hob) hn hpublic rfl)
    | some x => exact Run.observesFrom_happen trivial (.option hob (hc ob hob) hn hpublic rfl)
  · exact Run.observesFrom_of_state rfl

variable {run : Code → List Value → Run Value}
  (hrun : ∀ c args, (run c args).Observes World.AllowsWrite)

include hrun

theorem writing_callLaw : CallLaw (enterFrame run) (Run.Observes World.AllowsWrite) :=
  observes_callLaw (fun _ _ he => .nothing he) hrun

theorem assignOption_observes (hs : s.world.Sound) {o : ObjectId} {c : Class}
    (ho : o.number ≤ s.world.objects.created)
    (hc : ∀ ob, s.world.objects.get? o = some ob → s.world.registry.get? ob.cls = some c)
    {n : String} {e : VarLookup} (hn : c.resolveVar? n = some e) (hpublic : e.var.isPublic = true)
    (x : Value) : (assignOption (enterFrame run) o e.var x).WritesFrom s := by
  have hassigned := s.sound_after hs (.assigned o e.var.fullName x) trivial
  have hleads := s.world.leadsTo_after (.assigned o e.var.fullName x)
  unfold assignOption
  refine Run.observesFrom_look_bind fun ob hob => ?_
  rw [World.objectAt_eq_ok_iff] at hob
  refine Run.observesFrom_happen_bind trivial (.option hob (hc ob hob) hn hpublic rfl) ?_
  split
  · exact Run.observesFrom_of_state rfl
  · have henter := (writing_callLaw hrun).enterFrame
    refine Run.observesFrom_bind hassigned
      (Run.observesFrom_attempt (henter _ _ _ _ hassigned)) fun result u hu hleads' => ?_
    split
    · exact Run.observesFrom_of_state rfl
    · -- the hook may have removed the object, but it cannot have changed its class
      have hc' := (hleads.trans hleads').classes ho hc
      exact Run.observesFrom_bind hu (restore_observes hc' hn hpublic _)
        fun _ _ _ _ => Run.observesFrom_of_state rfl

theorem assignOptions_observes (hs : s.world.Sound) {o : ObjectId} {c : Class}
    (ho : o.number ≤ s.world.objects.created)
    (hc : ∀ ob, s.world.objects.get? o = some ob → s.world.registry.get? ob.cls = some c)
    (args : List Value) : (assignOptions (enterFrame run) c o args).WritesFrom s := by
  fun_induction assignOptions (enterFrame run) c o args generalizing s with
  | case1 => exact Run.observesFrom_of_state rfl
  | case2 => exact Run.observesFrom_answer_bind fun _ _ => Run.observesFrom_of_state rfl
  | case3 token value rest ih =>
    refine Run.observesFrom_answer_bind fun entry hentry => ?_
    obtain ⟨n, hn, hpublic⟩ := exists_of_findOption hentry
    refine Run.observesFrom_bind hs (assignOption_observes hrun hs ho hc hn hpublic value)
      fun _ u hu hleads => ?_
    exact ih hu (Nat.le_trans ho hleads.created) (hleads.classes ho hc)

theorem configure_observes {evaluate : Evaluate}
    (hevaluate : ∀ e args, (evaluate e args).Observes World.AllowsWrite) (args : List Value) :
    (configure (enterFrame run) evaluate args).Observes World.AllowsWrite := by
  have hlaw := Run.observes_law World.AllowsWrite
  have hcalls := writing_callLaw hrun
  intro s hs
  unfold configure
  refine Run.observesFrom_look_bind fun ⟨o, c⟩ hscope => ?_
  obtain ⟨ob, hob, hc⟩ := exists_of_optionScope hscope
  have ho := hs.allocated o ob hob
  have hclasses := World.classes_of_get? hob hc
  have hdelegated := hlaw.delegated (fun v => hcalls.happen (.logged v) trivial rfl) hevaluate c o
    "configure" args
  refine Run.observesFrom_bind hs (hdelegated s hs) fun answer u hu hleads => ?_
  split
  · exact Run.observesFrom_of_state rfl
  · split
    · exact hlaw.look _ u hu
    · split
      · exact Run.observesFrom_of_state rfl
      · exact hlaw.bind (hlaw.answer _) (fun _ => hlaw.look _) u hu
    · exact Run.observesFrom_bind hu
        (assignOptions_observes hrun hu (Nat.le_trans ho hleads.created)
          (hleads.classes ho hclasses) args)
        fun _ _ _ _ => Run.observesFrom_of_state rfl

/-! ### Creation -/

theorem createObject_observes (cls : ClassId) (name : String) (args : List Value) :
    (createObject (enterFrame run) cls name args).Observes World.AllowsWrite := by
  have hlaw := Run.observes_law World.AllowsWrite
  have hcalls := writing_callLaw hrun
  intro s hs
  unfold createObject
  refine Run.observesFrom_look_bind fun c hc => Run.observesFrom_world_bind ?_
  rw [World.classAt_eq_ok_iff] at hc
  split
  · exact Run.observesFrom_of_state rfl
  · next hfree =>
    split
    · exact Run.observesFrom_of_state rfl
    · have hadmits : s.world.Admits (.objectCreated name cls) := by
        refine ⟨by simpa [World.findObject?] using hfree, ?_⟩
        rw [hc]
        rfl
      have hcreated := s.sound_after hs (.objectCreated name cls) hadmits
      have hnew : (s.after (.objectCreated name cls)).world.objects.get? s.world.objects.nextId =
          some { id := s.world.objects.nextId, name := name, cls := cls } :=
        (s.world.get?_after_objectCreated name cls).trans (by rw [hs.get?_nextId, Option.none_or])
      refine Run.observesFrom_happen_bind hadmits (.nothing rfl) ?_
      refine Run.observesFrom_bind hcreated
        (initializeVariables_observes hcreated hnew rfl hc) fun _ t ht _ => ?_
      refine Run.observesFrom_happen_bind trivial (.nothing rfl) ?_
      have hbegun := t.sound_after ht (.constructionBegun s.world.objects.nextId) trivial
      refine hlaw.bind (hlaw.attempt (hcalls.constructClass hlaw.exhaust _ _ _ _))
        (fun result u hu => ?_) _ hbegun
      have hended := u.sound_after hu (.constructionEnded s.world.objects.nextId) trivial
      refine Run.observesFrom_happen_bind trivial (.nothing rfl) ?_
      split
      · exact Run.observesFrom_of_state rfl
      · exact hlaw.bind (hcalls.removeObject _) (fun _ => hlaw.fail _) _ hended

end

/-! ### Evaluation -/

theorem writing_evaluationLaw : EvaluationLaw (Run.Observes World.AllowsWrite) where
  toLaw := Run.observes_law World.AllowsWrite
  operations hrun :=
    (writing_callLaw hrun).toOperationLaw setVariable_observes unsetVariable_observes
      bindComponent_observes
      ((writing_callLaw hrun).runConstructor (Run.observes_law World.AllowsWrite).exhaust)
      (createObject_observes hrun) (configure_observes hrun)

/-- Every evaluation writes variables only as `World.AllowsWrite` says. -/
theorem evaluate_observes (loads frames : Nat) (e : Expr) (args : List Value) :
    (evaluate loads frames e args).Observes World.AllowsWrite :=
  writing_evaluationLaw.evaluate loads frames e args

namespace Session

theorem each_allowsWrite_history {w : World} (hw : w.Sound) (loads : Nat) (steps : List Expr) :
    w.Each World.AllowsWrite (history loads w steps) := by
  induction steps generalizing w with
  | nil => trivial
  | cons e steps ih =>
    have hstep : w.Each World.AllowsWrite (step loads w e).2.journal.reverse :=
      (evaluate_observes loads w.stack.limit e []).journal hw
    obtain ⟨hcourse, hworld⟩ := step_course hw loads e
    unfold history
    refine World.each_append.mpr ⟨hstep, ?_⟩
    split
    · trivial
    · rw [← hworld]
      apply ih
      rw [hworld]
      exact hcourse.sound hw

/-- **In every part of a session variables are written only as `World.AllowsWrite`
says.** -/
theorem Stretch.each_allowsWrite {o : EngineOptions} {w : World} {es : List Event}
    (h : Stretch o w es) : w.Each World.AllowsWrite es :=
  h.each (each_allowsWrite_history (World.sound_initial o))

end Session

end ObjectDispatch
