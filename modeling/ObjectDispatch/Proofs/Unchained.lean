import ObjectDispatch.Proofs.Conformance
import ObjectDispatch.Proofs.Construction
import ObjectDispatch.Proofs.EndedRuns

/-!
# Only chaining constructs an object that is there

A constructor runs for an object when the object is created, and when code chains to the
constructor.  No name means it, and creating another object constructs that one.  So code
that does not chain neither marks a class of an object that was there before nor starts a
part of a constructor for it.

This is said of runs, as chaining is an event of its own that comes before what it leads
to.  A run that constructs one object is exempt from it for that object, and for that one
only.

## Main definitions

* `Event.constructorStart?`, `Event.Constructs` — what construction consists of.
* `Spared` — the events of a run that chains, or that does not construct the object.
* `Run.Spares` — a run that spares each object that is there, except the exempt one.

## Main results

* `constructClass_spares` — constructing an object spares all others.
* `spares_evaluationLaw` — **without chaining, no evaluation constructs an object that is
  there.**
-/

namespace ObjectDispatch

/-- The part of a constructor that starts for the object, and its class. -/
def Event.constructorStart? (o : ObjectId) : Event → Option (ConstructorPart × ClassId)
  | .entered f a => if f.object = some o then a.part? else none
  | _ => none

theorem Event.constructorStart?_entered {f : Frame} {a : Activity} {o : ObjectId}
    (h : f.object = some o → a.part? = none) : (Event.entered f a).constructorStart? o = none := by
  show (if f.object = some o then a.part? else none) = none
  split
  · next hobject => exact h hobject
  · rfl

theorem Event.IsQuiet.constructorStart?_eq_none {e : Event} (he : e.IsQuiet) (o : ObjectId) :
    e.constructorStart? o = none := by
  cases e with
  | entered => exact he.elim
  | _ => rfl

/-- The event belongs to the construction of the object. -/
def Event.Constructs (o : ObjectId) (e : Event) : Prop :=
  (∃ k, e = .constructorMarked o k) ∨ (e.constructorStart? o).isSome

theorem Event.not_constructs {e : Event} {o : ObjectId} (hmark : ∀ k, e ≠ .constructorMarked o k)
    (hstart : e.constructorStart? o = none) : ¬ e.Constructs o := by
  rintro (⟨k, rfl⟩ | hstarts)
  · exact hmark k rfl
  · rw [hstart] at hstarts
    cases hstarts

/-- Where the events include no chaining, none of them constructs the object. -/
def Spared (o : ObjectId) (es : List Event) : Prop :=
  .chained ∈ es ∨ ∀ e ∈ es, ¬ e.Constructs o

section

variable {o : ObjectId} {es fs : List Event}

theorem spared_nil (o : ObjectId) : Spared o [] := Or.inr fun _ he => absurd he List.not_mem_nil

theorem spared_singleton {e : Event} (h : ¬ e.Constructs o) : Spared o [e] :=
  Or.inr (List.forall_mem_singleton.mpr h)

theorem Spared.append (hes : Spared o es) (hfs : Spared o fs) : Spared o (es ++ fs) := by
  rcases hes with hchained | hes
  · exact Or.inl (List.mem_append_left _ hchained)
  · rcases hfs with hchained | hfs
    · exact Or.inl (List.mem_append_right _ hchained)
    · exact Or.inr (List.forall_mem_append.mpr ⟨hes, hfs⟩)

theorem Spared.of_not_chained (h : Spared o es) (hes : .chained ∉ es) :
    ∀ e ∈ es, ¬ e.Constructs o :=
  h.resolve_left hes

end

/-- The object is there, or has been. -/
structure World.Made (w : World) (o : ObjectId) : Prop where
  sound : w.Sound
  allocated : o.number ≤ w.objects.created

theorem World.Made.after {w : World} {o : ObjectId} {e : Event} (h : w.Made o)
    (he : w.Admits e) : (w.after e).Made o :=
  ⟨h.sound.after he, Nat.le_trans h.allocated (w.leadsTo_after e).created⟩

theorem World.Made.replay {w : World} {o : ObjectId} {es : List Event} (h : w.Made o)
    (hes : w.AdmitsAll es) : (w.replay es).Made o :=
  ⟨h.sound.replay hes, Nat.le_trans h.allocated (World.leadsTo_replay w es).created⟩

/-! ### Runs that spare objects -/

namespace Run

variable {α β : Type} {x : Option ObjectId} {s : State}

/-- From the state `s` on, each object that is there is spared, unless it is exempt. -/
def SparesFrom (x : Option ObjectId) (r : Run α) (s : State) : Prop :=
  ∃ es, s.world.AdmitsAll es ∧ (r s).2 = es.foldl State.after s ∧
    ∀ o, s.world.Made o → x ≠ some o → Spared o es

/-- From every sound state on, each object that is there is spared, unless it is
exempt. -/
def Spares (x : Option ObjectId) (r : Run α) : Prop :=
  ∀ s, s.world.Sound → r.SparesFrom x s

theorem sparesFrom_of_state {r : Run α} (h : (r s).2 = s) : r.SparesFrom x s :=
  ⟨[], trivial, h, fun o _ _ => spared_nil o⟩

theorem SparesFrom.sound {r : Run α} (h : r.SparesFrom x s) (hs : s.world.Sound) :
    (r s).2.world.Sound := by
  obtain ⟨es, hes, hend, -⟩ := h
  rw [hend, State.world_foldl_after]
  exact hs.replay hes

/-- What is spared where nothing is exempt is spared where something is. -/
theorem Spares.exempt {r : Run α} (h : r.Spares none) : r.Spares x := by
  intro s hs
  obtain ⟨es, hes, hend, hspared⟩ := h s hs
  exact ⟨es, hes, hend, fun o hmade _ => hspared o hmade (Option.some_ne_none o).symm⟩

theorem sparesFrom_bind {r : Run α} {f : α → Run β} (hs : s.world.Sound) (hr : r.SparesFrom x s)
    (hf : ∀ a t, r s = (.value a, t) → t.world.Sound → (f a).SparesFrom x t) :
    (r >>= f).SparesFrom x s := by
  have hsound := hr.sound hs
  obtain ⟨es, hes, hend, hspared⟩ := hr
  unfold SparesFrom
  rw [bind_apply]
  cases hrun : r s with
  | mk out t =>
    rw [hrun] at hend hsound
    simp only at hend hsound
    cases out with
    | value a =>
      have hworld : t.world = s.world.replay es := by rw [hend, State.world_foldl_after]
      obtain ⟨fs, hfs, hend', hspared'⟩ := hf a t hrun hsound
      rw [hworld] at hfs hspared'
      refine ⟨es ++ fs, World.admitsAll_append.mpr ⟨hes, hfs⟩, ?_, fun o hmade hx => ?_⟩
      · rw [List.foldl_append, ← hend]
        exact hend'
      · exact (hspared o hmade hx).append (hspared' o (hmade.replay hes) hx)
    | failure e => exact ⟨es, hes, hend, hspared⟩
    | exhausted => exact ⟨es, hes, hend, hspared⟩

theorem sparesFrom_look_bind {g : World → Except DispatchError α} {f : α → Run β}
    (hf : ∀ a, g s.world = .ok a → (f a).SparesFrom x s) : (look g >>= f).SparesFrom x s := by
  cases hg : g s.world with
  | ok a =>
    unfold SparesFrom
    rw [look_bind_of_ok hg]
    exact hf a hg
  | error e => exact sparesFrom_of_state (by rw [look_bind_of_error hg])

theorem sparesFrom_world_bind {f : World → Run β} (hf : (f s.world).SparesFrom x s) :
    (world >>= f).SparesFrom x s := hf

/-- What has chained spares nothing any more. -/
theorem sparesFrom_chained_bind {f : Unit → Run β} (hf : (f ()).Follows) :
    (happen .chained >>= f).SparesFrom x s := by
  obtain ⟨es, hes, hend⟩ := hf (s.after .chained)
  exact ⟨.chained :: es, ⟨trivial, hes⟩, hend, fun _ _ _ => Or.inl List.mem_cons_self⟩

theorem sparesFrom_happen {e : Event} (he : s.world.Admits e)
    (h : ∀ o, s.world.Made o → x ≠ some o → ¬ e.Constructs o) : (happen e).SparesFrom x s :=
  ⟨[e], ⟨he, trivial⟩, rfl, fun o hmade hx => spared_singleton (h o hmade hx)⟩

theorem spares_law (x : Option ObjectId) : Run.Law (Spares x) where
  pure _ _ _ := sparesFrom_of_state rfl
  fail _ _ _ := sparesFrom_of_state rfl
  exhaust _ _ := sparesFrom_of_state rfl
  world _ _ := sparesFrom_of_state rfl
  look g s _ := sparesFrom_of_state (by rw [look_apply])
  bind hr hf s hs := sparesFrom_bind hs (hr s hs) fun a t _ ht => hf a t ht
  attempt {α r} hr s hs := by
    obtain ⟨es, hes, hend, hspared⟩ := hr s hs
    refine ⟨es, hes, ?_, hspared⟩
    rw [attempt_apply]
    cases hrun : r s with
    | mk out t =>
      rw [hrun] at hend
      cases out <;> exact hend

/-- What can happen everywhere and starts nothing spares all objects, except that a mark is
for one of them. -/
theorem spares_happen {e : Event} (hadmits : ∀ w : World, w.Admits e)
    (hstart : ∀ o, e.constructorStart? o = none)
    (hmark : ∀ o k, e = .constructorMarked o k → x = some o) : (happen e).Spares x :=
  fun s _ => sparesFrom_happen (hadmits s.world) fun o _ hx =>
    Event.not_constructs (fun k h => hx (hmark o k h)) (hstart o)

theorem spares_local {e : Event} (he : e.IsLocal)
    (hmark : ∀ o k, e = .constructorMarked o k → x = some o) : (happen e).Spares x :=
  spares_happen (fun w => w.admits_of_isLocal he) he.isQuiet.constructorStart?_eq_none hmark

theorem spares_assignmentLaw (x : Option ObjectId) : AssignmentLaw (Spares x) where
  toCompositional := (spares_law x).toCompositional
  assigned _ _ _ := spares_local trivial (by simp)
  cleared _ _ := spares_local trivial (by simp)

end Run

/-! ### Frames -/

section

variable {x : Option ObjectId} {run : Code → List Value → Run Value}
variable (hrun : ∀ c args, (run c args).Spares none)

include hrun

/-- What runs in a frame spares all objects, except that it may be a part of a constructor
for the exempt one. -/
theorem enterFrame_spares {f : Frame} {a : Activity}
    (ha : ∀ o, f.object = some o → x ≠ some o → a.part? = none) (args : List Value) :
    (enterFrame run f a args).Spares x := by
  have hlaw := Run.spares_law x
  intro s hs
  unfold enterFrame
  refine Run.sparesFrom_world_bind ?_
  split
  · exact hlaw.bind (Run.spares_happen (e := .refused f a) (fun _ => trivial) (fun _ => rfl)
      (by simp)) (fun _ => hlaw.fail _) s hs
  · next t hpush =>
    refine Run.sparesFrom_bind hs (Run.sparesFrom_happen (CallStack.depth_lt_of_push hpush) ?_)
      fun _ u _ hu => ?_
    · intro o _ hx
      refine Event.not_constructs (by simp) ?_
      exact Event.constructorStart?_entered fun hobject => ha o hobject hx
    · refine hlaw.bind (hlaw.attempt (hrun _ _).exempt) (fun result => ?_) u hu
      exact hlaw.bind (Run.spares_happen (fun _ => trivial) (fun _ => rfl) (by simp))
        fun _ => hlaw.answer _

/-- Functions that are no constructors spare all objects. -/
theorem callMember_spares {f : MemberFunction} (hf : f.flags.isConstructor = false)
    (object : Option ObjectId) (n : String) (args : List Value) :
    (callMember (enterFrame run) f object n args).Spares x :=
  enterFrame_spares hrun (fun _ _ _ => Activity.part?_body_eq_none hf) args

/-- What runs for the exempt object spares all others. -/
theorem enterFrame_spares_of_object {f : Frame} {o : ObjectId} (hobject : f.object = some o)
    (a : Activity) (args : List Value) : (enterFrame run f a args).Spares (some o) :=
  enterFrame_spares hrun (fun _ ho hx => absurd (hobject.symm.trans ho) hx) args

/-! ### Construction -/

theorem runInitializer_spares (f : MemberFunction) (o : ObjectId) (args : List Value) :
    (runInitializer (enterFrame run) f o args).Spares (some o) := by
  have hlaw := Run.spares_law (some o)
  unfold runInitializer
  split
  · exact hlaw.pure ()
  · exact hlaw.bind (enterFrame_spares_of_object hrun rfl _ args) fun _ => hlaw.pure ()

theorem runConstructorWith_spares {super : ClassId → Run Unit} {o : ObjectId}
    (hsuper : ∀ k, (super k).Spares (some o)) (f : MemberFunction) (args : List Value) :
    (runConstructorWith (enterFrame run) super f o args).Spares (some o) := by
  have hlaw := Run.spares_law (some o)
  unfold runConstructorWith
  refine hlaw.bind (hlaw.look _) fun ob => ?_
  split
  · exact hlaw.pure _
  · refine hlaw.bind (Run.spares_local trivial (by simp)) fun _ => ?_
    refine hlaw.bind (runInitializer_spares hrun f o args) fun _ => ?_
    refine hlaw.bind (hlaw.look _) fun c => hlaw.bind (hlaw.forM hsuper _) fun _ => ?_
    exact enterFrame_spares_of_object hrun rfl _ args

/-- **Constructing an object spares all others.** -/
theorem constructClass_spares (o : ObjectId) (depth : Nat) (k : ClassId) (args : List Value) :
    (constructClass (enterFrame run) o depth k args).Spares (some o) := by
  have hlaw := Run.spares_law (some o)
  induction depth generalizing k args with
  | zero => exact hlaw.exhaust
  | succ depth ih =>
    unfold constructClass
    refine hlaw.bind (hlaw.look _) fun ob => ?_
    split
    · exact hlaw.pure ()
    · refine hlaw.bind (hlaw.look _) fun c => ?_
      split
      · exact hlaw.bind (runConstructorWith_spares hrun (fun k => ih k []) _ args)
          fun _ => hlaw.pure ()
      · exact hlaw.bind (Run.spares_local trivial (by simp)) fun _ =>
          hlaw.forM (fun k => ih k []) _

/-! ### Operations -/

omit hrun in
theorem removeObject_spares (o : ObjectId) : (removeObject o).Spares x := by
  have hlaw := Run.spares_law x
  unfold removeObject
  refine hlaw.bind hlaw.world fun w => ?_
  split
  · exact Run.spares_local trivial (by simp)
  · exact hlaw.pure ()

omit hrun in
/-- A new object is none that is there, so that what comes after its creation may construct
it. -/
theorem sparesFrom_objectCreated_bind {α : Type} {cls : ClassId} {name : String} {r : Run α}
    {s : State} (hadmitted : s.world.Admits (.objectCreated name cls))
    (hs : (s.after (.objectCreated name cls)).world.Sound)
    (hr : r.Spares (some s.world.objects.nextId)) :
    (Run.happen (.objectCreated name cls) >>= fun _ => r).SparesFrom none s := by
  obtain ⟨es, hes, hend, hspared⟩ := hr _ hs
  refine ⟨.objectCreated name cls :: es, ⟨hadmitted, hes⟩, hend, fun o hmade _ => ?_⟩
  have hcreated : Spared o [.objectCreated name cls] :=
    spared_singleton (Event.not_constructs (by simp) rfl)
  refine hcreated.append (hspared o (hmade.after hadmitted) ?_)
  rintro hsame
  have hle := hmade.allocated
  rw [← Option.some.inj hsame] at hle
  exact absurd hle (Nat.not_succ_le_self _)

theorem createObject_spares (cls : ClassId) (name : String) (args : List Value) :
    (createObject (enterFrame run) cls name args).Spares none := by
  intro s hs
  unfold createObject
  refine Run.sparesFrom_look_bind fun c hc => Run.sparesFrom_world_bind ?_
  have hfail {e : DispatchError} : (Run.fail e : Run ObjectId).SparesFrom none s :=
    Run.sparesFrom_of_state rfl
  split
  · exact hfail
  · next hfree =>
    split
    · exact hfail
    · have hadmitted : s.world.Admits (.objectCreated name cls) := by
        refine ⟨by simpa [World.findObject?] using hfree, ?_⟩
        rw [World.classAt_eq_ok_iff.mp hc]
        rfl
      have hlaw := Run.spares_law (some s.world.objects.nextId)
      refine sparesFrom_objectCreated_bind hadmitted (hs.after hadmitted) ?_
      refine hlaw.bind ((Run.spares_assignmentLaw _).initializeVariables _ _) fun _ => ?_
      refine hlaw.bind (Run.spares_happen (fun _ => trivial) (fun _ => rfl) (by simp))
        fun _ => ?_
      refine hlaw.bind (hlaw.attempt (constructClass_spares hrun _ _ _ _)) fun result => ?_
      refine hlaw.bind (Run.spares_happen (fun _ => trivial) (fun _ => rfl) (by simp))
        fun _ => ?_
      split
      · exact hlaw.pure _
      · exact hlaw.bind (removeObject_spares _) fun _ => hlaw.fail _

theorem invoke_spares (o : ObjectId) (n : String) (args : List Value) :
    (invoke (enterFrame run) o n args).Spares none := by
  intro s hs
  unfold invoke
  refine Run.sparesFrom_look_bind fun c hc => Run.sparesFrom_look_bind fun f hf => ?_
  obtain ⟨ob, -, hc⟩ := World.classOf_eq_ok_iff.mp hc
  have hctor := (hs.built.resolveFunction?_spec hc (callable_eq_ok_iff.mp hf).1).1
  exact callMember_spares hrun hctor _ _ _ s hs

theorem invokeProc_spares (k : ClassId) (n : String) (args : List Value) :
    (invokeProc (enterFrame run) k n args).Spares none := by
  intro s hs
  unfold invokeProc
  refine Run.sparesFrom_look_bind fun c hc => Run.sparesFrom_look_bind fun f hf => ?_
  split
  · exact Run.sparesFrom_of_state rfl
  · have hctor := (hs.built.resolveFunction?_spec (World.classAt_eq_ok_iff.mp hc)
      (callable_eq_ok_iff.mp hf).1).1
    exact callMember_spares hrun hctor _ _ _ s hs

theorem evalWithin_spares (k : ClassId) (o : Option ObjectId) (e : Expr) (args : List Value) :
    (evalWithin (enterFrame run) k o e args).Spares none := by
  have hlaw := Run.spares_law none
  exact hlaw.bind (hlaw.look _) fun _ => enterFrame_spares hrun (fun _ _ _ => rfl) args

/-- The functions that deletion runs are called `destructor`. -/
theorem runDestructors_spares (o : ObjectId) (ks : List ClassId) :
    (runDestructors (enterFrame run) o ks).Spares none := by
  have hlaw := Run.spares_law none
  induction ks with
  | nil => exact hlaw.pure ()
  | cons k ks ih =>
    intro s hs
    unfold runDestructors
    refine Run.sparesFrom_look_bind fun c hc => ?_
    split
    · exact ih s hs
    · next f hf =>
      have hctor := hs.built.isConstructor_eq_false (World.classAt_eq_ok_iff.mp hc) hf
        (by decide)
      refine hlaw.bind (hlaw.look _) (fun ob => ?_) s hs
      split
      · exact ih
      · refine hlaw.bind (Run.spares_local trivial (by simp)) fun _ => ?_
        refine hlaw.bind (hlaw.attempt (callMember_spares hrun hctor _ _ _)) fun result => ?_
        split
        · exact ih
        · refine hlaw.bind (hlaw.look _) fun _ => ?_
          exact hlaw.bind (Run.spares_local trivial (by simp)) fun _ => hlaw.fail _

theorem deleteObject_spares (o : ObjectId) : (deleteObject (enterFrame run) o).Spares none := by
  have hlaw := Run.spares_law none
  unfold deleteObject
  refine hlaw.bind (hlaw.look _) fun c => ?_
  refine hlaw.bind (Run.spares_local trivial (by simp)) fun _ => ?_
  exact hlaw.bind (runDestructors_spares hrun o _) fun _ => removeObject_spares o

theorem assignOption_spares (o : ObjectId) (v : Variable) (value : Value) :
    (assignOption (enterFrame run) o v value).Spares none := by
  have hlaw := Run.spares_law none
  unfold assignOption
  refine hlaw.bind (hlaw.look _) fun ob => ?_
  refine hlaw.bind (Run.spares_local trivial (by simp)) fun _ => ?_
  split
  · exact hlaw.pure ()
  · refine hlaw.bind (hlaw.attempt (enterFrame_spares hrun (fun _ _ _ => rfl) [])) fun result => ?_
    split
    · exact hlaw.pure ()
    · exact hlaw.bind ((Run.spares_assignmentLaw none).congruence.restore _ _ _)
        fun _ => hlaw.fail _

theorem configure_spares {evaluate : Evaluate} (hevaluate : ∀ e args, (evaluate e args).Spares none)
    (args : List Value) : (configure (enterFrame run) evaluate args).Spares none :=
  @Run.Congruence.configure _ (Run.spares_law none).toCompositional.congruence (enterFrame run)
    (enterFrame run) (assignOption_spares hrun) (fun _ => Run.spares_local trivial (by simp))
    evaluate evaluate hevaluate args

end

/-! ### Evaluation -/

/-- After what has chained comes the rest of it. -/
theorem chain_spares {run : Code → List Value → Run Value}
    (hrun : ∀ c args, (run c args).Follows) (args : List Value) :
    (chain (enterFrame run) args).Spares none := by
  have hlaw := follows_localLaw
  have hcall (f : MemberFunction) (o : Option ObjectId) (n : String) :
      (callMember (enterFrame run) f o n args).Follows := enterFrame_follows hrun _ _ _
  intro s _
  unfold chain
  refine Run.sparesFrom_chained_bind ?_
  refine hlaw.bind (hlaw.look _) fun target => ?_
  split
  · exact hlaw.pure _
  · refine hlaw.bind (hlaw.look _) fun context => ?_
    dsimp only
    split
    · refine hlaw.bind hlaw.world fun w => ?_
      split
      · exact hlaw.fail _
      · exact hlaw.runConstructor hrun _ _ _
    · split
      · split
        · refine hlaw.bind (hlaw.look _) fun ob => ?_
          split
          · exact hlaw.pure _
          · exact hlaw.bind (hlaw.happen _ trivial) fun _ => hcall _ _ _
        · exact hcall _ _ _
      · exact hcall _ _ _

/-- The run lets only admitted events happen and spares the objects that are there. -/
def Run.FollowsSparing {α : Type} (r : Run α) : Prop := r.Follows ∧ r.Spares none

theorem followsSparing_law : Run.Law Run.FollowsSparing where
  pure a := ⟨Run.follows_law.pure a, (Run.spares_law none).pure a⟩
  fail e := ⟨Run.follows_law.fail e, (Run.spares_law none).fail e⟩
  exhaust := ⟨Run.follows_law.exhaust, (Run.spares_law none).exhaust⟩
  world := ⟨Run.follows_law.world, (Run.spares_law none).world⟩
  look g := ⟨Run.follows_law.look g, (Run.spares_law none).look g⟩
  bind hr hf := ⟨Run.follows_law.bind hr.1 fun a => (hf a).1,
    (Run.spares_law none).bind hr.2 fun a => (hf a).2⟩
  attempt hr := ⟨Run.follows_law.attempt hr.1, (Run.spares_law none).attempt hr.2⟩

theorem defineClass_spares (d : ClassDecl Expr) : (defineClass d).Spares none := by
  intro s hs
  unfold defineClass
  refine Run.sparesFrom_look_bind fun c hc => ?_
  refine Run.sparesFrom_bind hs (Run.sparesFrom_happen ⟨d, hc⟩ fun _ _ _ => ?_) fun _ u _ hu => ?_
  · exact Event.not_constructs (by simp) rfl
  · exact (Run.spares_law none).pure _ u hu

/-- **Without chaining, no evaluation constructs an object that is there.** -/
theorem spares_evaluationLaw : EvaluationLaw Run.FollowsSparing where
  toLaw := followsSparing_law
  operations hrun := by
    have hassigns := Run.spares_assignmentLaw none
    have hfollows := (follows_localLaw.toEvaluationLaw createObject_follows).operations
      fun c args => (hrun c args).1
    have hspares := fun c args => (hrun c args).2
    exact
      { toCompositional := followsSparing_law.toCompositional
        logged := fun v => ⟨hfollows.logged v, Run.spares_local trivial (by simp)⟩
        loaderInstalled := fun l => ⟨hfollows.loaderInstalled l, Run.spares_local trivial (by simp)⟩
        delegateInstalled := fun e =>
          ⟨hfollows.delegateInstalled e, Run.spares_local trivial (by simp)⟩
        setVariable := fun n v => ⟨hfollows.setVariable n v, hassigns.setVariable n v⟩
        unsetVariable := fun n => ⟨hfollows.unsetVariable n, hassigns.unsetVariable n⟩
        bindComponent := fun o n t => ⟨hfollows.bindComponent o n t, hassigns.bindComponent o n t⟩
        defineClass := fun d => ⟨hfollows.defineClass d, defineClass_spares d⟩
        invoke := fun o n args => ⟨hfollows.invoke o n args, invoke_spares hspares o n args⟩
        invokeProc := fun k n args =>
          ⟨hfollows.invokeProc k n args, invokeProc_spares hspares k n args⟩
        evalWithin := fun k o e args =>
          ⟨hfollows.evalWithin k o e args, evalWithin_spares hspares k o e args⟩
        chain := fun args => ⟨hfollows.chain args, chain_spares (fun c a => (hrun c a).1) args⟩
        createObject := fun k n args =>
          ⟨hfollows.createObject k n args, createObject_spares hspares k n args⟩
        deleteObject := fun o => ⟨hfollows.deleteObject o, deleteObject_spares hspares o⟩
        configure := fun hevaluate args =>
          ⟨hfollows.configure (fun e a => (hevaluate e a).1) args,
            configure_spares hspares (fun e a => (hevaluate e a).2) args⟩ }

end ObjectDispatch
