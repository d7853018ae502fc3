import ObjectDispatch.Proofs.Performing

/-!
# Evaluations follow courses

The operations of the language are followed step by step: each of them performs
the task that `Course` has for it.  An operation looks at the world, lets events
happen and runs code in frames, and what runs in a frame follows a course by
assumption.

## Main results

* `createObject_performs` — the creation of an object follows a course.
* `evaluate_conforms` — **every evaluation follows a course.**
-/

namespace ObjectDispatch

/-! ### What is done without running code -/

/-- An object may have been removed already. -/
theorem removeObject_apply (o : ObjectId) (s : State) :
    removeObject o s = (.value (), ((Undo.remove o).events s.world).foldl State.after s) := by
  unfold removeObject
  rw [Run.bind_apply, Run.world_apply]
  by_cases hlive : (s.world.objects.get? o).isSome = true
  · have hevents : (Undo.remove o).events s.world = [.objectRemoved o] := if_pos hlive
    rw [hevents]
    simp only [hlive, if_true]
    rfl
  · have hevents : (Undo.remove o).events s.world = [] := if_neg hlive
    rw [hevents]
    simp only [hlive]
    rfl

theorem restore_apply (o : ObjectId) (x : String) (previous : Option Value) (s : State) :
    restore o x previous s =
      (.value (), ((Undo.restore o x previous).events s.world).foldl State.after s) := by
  unfold restore
  rw [Run.bind_apply, Run.world_apply]
  by_cases hlive : (s.world.objects.get? o).isSome = true
  · have hevents : (Undo.restore o x previous).events s.world =
        [(Undo.restore o x previous).event] := if_pos hlive
    rw [hevents]
    simp only [hlive, if_true]
    cases previous <;> rfl
  · have hevents : (Undo.restore o x previous).events s.world = [] := if_neg hlive
    rw [hevents]
    simp only [hlive]
    rfl

/-- Assigning variables of an object changes neither the registry nor which objects
live. -/
theorem World.keeps_of_assigned {o : ObjectId} {es : List Event} (w : World)
    (h : ∀ e ∈ es, ∃ x v, e = .assigned o x v) :
    (w.replay es).registry = w.registry ∧
      ∀ k, ((w.replay es).objects.get? k).isSome = (w.objects.get? k).isSome := by
  induction es generalizing w with
  | nil => exact ⟨rfl, fun _ => rfl⟩
  | cons e es ih =>
    rw [List.forall_mem_cons] at h
    obtain ⟨⟨x, v, rfl⟩, h⟩ := h
    obtain ⟨hregistry, hlive⟩ := ih (w.after (.assigned o x v)) h
    refine ⟨hregistry, fun k => (hlive k).trans ?_⟩
    rw [w.get?_after_of_ne (e := .assigned o x v) nofun, Option.isSome_or, Option.isSome_map]
    exact Bool.or_false _

/-- Gives the variables of one class their initial values. -/
def initializeOwn (o : ObjectId) (vs : List Variable) : Run Unit :=
  vs.forM fun v =>
    match v.init with
    | some x => Run.happen (.assigned o v.fullName x)
    | none => pure ()

theorem initializeOwn_apply (o : ObjectId) (vs : List Variable) (s : State) :
    initializeOwn o vs s =
      (.value (), (vs.filterMap fun v => v.init.map (.assigned o v.fullName ·)).foldl
        State.after s) := by
  induction vs generalizing s with
  | nil => rfl
  | cons v vs ih =>
    have hcons : initializeOwn o (v :: vs) =
        (match v.init with
          | some x => Run.happen (.assigned o v.fullName x)
          | none => pure ()) >>= fun _ => initializeOwn o vs := rfl
    rw [hcons, Run.bind_apply]
    cases hinit : v.init with
    | none =>
      rw [List.filterMap_cons_none (by rw [hinit]; rfl)]
      exact ih s
    | some x =>
      rw [List.filterMap_cons_some (by rw [hinit]; rfl), List.foldl_cons]
      exact ih _

/-- The variables of registered classes get their initial values. -/
theorem initializeVariables_apply {o : ObjectId} {ks : List ClassId} {s : State}
    (hks : ∀ k ∈ ks, (s.world.registry.get? k).isSome) (ho : (s.world.objects.get? o).isSome) :
    initializeVariables o ks s =
      (.value (), (s.world.registry.initialValues o ks).foldl State.after s) := by
  induction ks generalizing s with
  | nil => rfl
  | cons k ks ih =>
    rw [List.forall_mem_cons] at hks
    obtain ⟨c, hc⟩ := Option.isSome_iff_exists.mp hks.1
    obtain ⟨ob, hob⟩ := Option.isSome_iff_exists.mp ho
    -- the values of one class change nothing that those of the next depend on
    obtain ⟨hregistry, hlive⟩ :=
      s.world.keeps_of_assigned fun _ he => c.exists_of_mem_initialValues he
    have hrest : initializeVariables o ks ((c.initialValues o).foldl State.after s) = _ :=
      ih (by rw [State.world_foldl_after, hregistry]; exact hks.2)
        (by rw [State.world_foldl_after, hlive]; exact ho)
    rw [State.world_foldl_after, hregistry] at hrest
    have hcons : initializeVariables o (k :: ks) =
        (Run.look (·.classAt k) >>= fun c => Run.look (·.objectAt o) >>= fun _ =>
          initializeOwn o c.ownVariables.toList) >>= fun _ => initializeVariables o ks := rfl
    have hstep : initializeVariables o (k :: ks) s =
        initializeVariables o ks ((c.initialValues o).foldl State.after s) := by
      rw [hcons]
      simp only [Run.bind_apply, Run.look_apply, World.classAt_eq hc, World.objectAt_eq hob,
        initializeOwn_apply, Class.initialValues]
    have hfirst : s.world.registry.initialValues o (k :: ks) =
        c.initialValues o ++ s.world.registry.initialValues o ks := by
      unfold Registry.initialValues
      rw [List.filterMap_cons_some hc, List.flatMap_cons]
    rw [hstep, hrest, hfirst, List.foldl_append]

/-! ### Frames -/

section Operations

variable {run : Code → List Value → Run Value} (hrun : ∀ c args, (run c args).Conforms)
variable {s : State} (hs : s.world.Sound)

include hrun hs

theorem enterFrame_performs (f : Frame) (a : Activity) (args : List Value) :
    (enterFrame run f a args).Performs (.frame f a) s := by
  unfold Run.Performs
  rw [enterFrame_apply]
  split
  · next hfull => exact ⟨[.refused f a], rfl, .refused hfull⟩
  · next hroom =>
    have hroom : s.world.stack.depth < s.world.stack.limit := Nat.lt_of_not_le hroom
    have hentered := s.sound_after hs (.entered f a) hroom
    obtain ⟨es, hend, hcourse⟩ := hrun a.code args (s.after (.entered f a)) hentered
    cases hcode : run a.code args (s.after (.entered f a)) with
    | mk out t =>
      rw [hcode] at hend hcourse
      simp only at hend
      have hframe : Course (.frame f a) s.world (.entered f a :: (es ++ out.ending.leaving))
          out.ending := .frame hroom hcourse
      refine ⟨.entered f a :: (es ++ out.ending.leaving), ?_, ?_⟩
      · rw [List.foldl_cons, List.foldl_append, ← hend]
        cases out <;> rfl
      · cases out <;> exact hframe

theorem callMember_performs (f : MemberFunction) (object : Option ObjectId) (n : String)
    (args : List Value) :
    (callMember (enterFrame run) f object n args).Performs
      (.frame (f.callFrame object n) (.body f)) s :=
  enterFrame_performs hrun hs _ _ _

/-! ### Construction -/

theorem runInitializer_performs (f : MemberFunction) (o : ObjectId) (args : List Value) :
    (runInitializer (enterFrame run) f o args).Performs (f.initialization o) s := by
  unfold runInitializer MemberFunction.initialization
  cases f.initializer with
  | none => exact Run.performs_of_apply rfl (.done _)
  | some code => exact Run.performs_map (enterFrame_performs hrun hs _ _ _) ()

theorem runConstructorWith_performs {super : ClassId → Run Unit} {f : MemberFunction}
    {o : ObjectId} {c : Class} (hc : s.world.registry.get? f.owner = some c)
    (hf : c.function? constructorName = some f)
    (hsuper : ∀ k u, u.world.Sound → (u.world.registry.get? k).isSome →
      (super k).Performs (.construct o k) u) (args : List Value) :
    (runConstructorWith (enterFrame run) super f o args).Performs (.constructor o f) s := by
  unfold runConstructorWith
  refine Run.performs_objectAt_bind rfl fun ob hob => ?_
  split
  · next hk => exact Run.performs_pure (.constructorBegun hob hk) _
  · next hk =>
    have hmarked := s.sound_after hs (.constructorMarked o f.owner) trivial
    refine Run.performs_happen_bind (.constructor hob (by simpa using hk) hc hf) ?_
    refine Run.performs_bind hmarked (runInitializer_performs hrun hmarked f o args)
      fun _ u _ hu hleads => ?_
    -- the class is what it was before the initializer
    have hc' : u.world.registry.get? f.owner = some c := hleads.registry.get? hc
    refine Run.performs_classAt_bind hc' ?_
    refine Run.performs_bind hu (Run.performs_forM hu fun k hk v hv hleads' => ?_)
      fun _ v _ hv _ => callMember_performs hrun hv f (some o) constructorName args
    have hregistered : (u.world.registry.get? k).isSome :=
      hu.built.isSome_get?_of_inherits (Registry.inherits_of_mem_supers hc' hk)
    exact hsuper k v hv (hleads'.registry.isSome_get? hregistered)

/-- Superclasses are constructed by the same function: an induction on how deep
they may nest. -/
theorem constructClass_performs (o : ObjectId) (depth : Nat) {k : ClassId}
    (hk : (s.world.registry.get? k).isSome) (args : List Value) :
    (constructClass (enterFrame run) o depth k args).Performs (.construct o k) s := by
  induction depth generalizing k args s with
  | zero => exact Run.performs_of_apply rfl (.cut _ _)
  | succ depth ih =>
    obtain ⟨c, hc⟩ := Option.isSome_iff_exists.mp hk
    unfold constructClass
    refine Run.performs_objectAt_bind rfl fun ob hob => ?_
    split
    · next hbegun => exact Run.performs_pure (.constructed hob hbegun) ()
    · next hbegun =>
      have hbegun : ob.isConstructed k = false := by simpa using hbegun
      refine Run.performs_classAt_bind hc ?_
      split
      · next f hf =>
        obtain ⟨howner, -⟩ := hs.built.function?_spec hc hf
        refine Run.performs_begins_nil (.constructOwn hob hbegun hc hf) ?_
        refine Run.performs_map (runConstructorWith_performs hrun hs (howner.symm ▸ hc) hf
          (fun k u hu hk => ih hu hk []) args) ()
      · next hf =>
        refine Run.performs_happen_bind (.constructSupers hob hbegun hc hf) ?_
        have hmarked := s.sound_after hs (.constructorMarked o k) trivial
        refine Run.performs_forM hmarked fun super hsuper u hu hleads => ih hu ?_ []
        exact hleads.registry.isSome_get?
          (hs.built.isSome_get?_of_inherits (Registry.inherits_of_mem_supers hc hsuper))

/-- An object whose construction fails is removed. -/
theorem construction_performs (o : ObjectId) {cls : ClassId}
    (hcls : (s.world.registry.get? cls).isSome) (depth : Nat) (args : List Value) :
    (do
      Run.happen (.constructionBegun o)
      let result ← Run.attempt (constructClass (enterFrame run) o depth cls args)
      Run.happen (.constructionEnded o)
      match result with
      | .ok () => return o
      | .error e =>
          removeObject o
          Run.fail e).Performs
      (.all [.guarded (.building o (.construct o cls)) (.remove o)]) s := by
  have hbegun := s.sound_after hs (.constructionBegun o) trivial
  rw [Run.attempt_building_bind]
  refine Run.performs_guarded hs
    (Run.performs_building (constructClass_performs hrun hbegun o depth hcls args)) ?_ ?_
  · intro _ v _ _ _
    exact Run.performs_of_apply rfl (.done _)
  · intro e v _
    refine ⟨e, ?_⟩
    simp only [Run.bind_apply, removeObject_apply, Run.fail_apply]

theorem createObject_performs (cls : ClassId) (name : String) (args : List Value) :
    (createObject (enterFrame run) cls name args).Performs (.create cls name) s := by
  have hnot {e : DispatchError} : (Run.fail e : Run ObjectId).Performs (.create cls name) s :=
    Run.performs_of_apply rfl (.notCreated cls name _ e)
  unfold createObject
  refine Run.performs_look_bind (fun c hc => ?_) fun e _ => .notCreated cls name _ e
  rw [World.classAt_eq_ok_iff] at hc
  show Run.Performs _ (if _ then _ else _) s
  split
  · exact hnot
  · next hfree =>
    have hfree : s.world.objects.find? name = none := by
      simpa [World.findObject?] using hfree
    split
    · exact hnot
    · -- the object lives and its classes are registered when its variables are set
      have hnew : ((s.after (.objectCreated name cls)).world.objects.get?
          s.world.objects.nextId).isSome :=
        s.world.isSome_get?_after_objectCreated name cls
      have hheritage : ∀ k ∈ c.heritage,
          ((s.after (.objectCreated name cls)).world.registry.get? k).isSome := by
        exact hs.built.isSome_of_mem_heritage hc
      have hinit := initializeVariables_apply hheritage hnew
      have hbegins := Task.Begins.create hc hfree
      have hbegun := hs.replay hbegins.admitsAll
      have hregistered (evs : List Event) :
          ((evs.foldl State.after s).world.registry.get? cls).isSome := by
        rw [State.world_foldl_after, (World.leadsTo_replay s.world evs).registry.get? hc]
        rfl
      rw [← State.world_foldl_after] at hbegun
      refine Run.performs_begins hbegins ?_
        (construction_performs hrun hbegun s.world.objects.nextId (hregistered _)
          (cls.index + 1) args)
      simp only [Run.bind_apply, Run.happen_apply, hinit]
      rfl

/-! ### Deletion -/

/-- The destructors of registered classes run in order, until one fails. -/
theorem runDestructors_performs (o : ObjectId) {ks : List ClassId}
    (hks : ∀ k ∈ ks, (s.world.registry.get? k).isSome) :
    (runDestructors (enterFrame run) o ks).Performs (.all (ks.map (.destruct o))) s := by
  induction ks generalizing s with
  | nil => exact Run.performs_of_apply rfl (.done _)
  | cons k ks ih =>
    rw [List.forall_mem_cons] at hks
    obtain ⟨c, hc⟩ := Option.isSome_iff_exists.mp hks.1
    show Run.Performs (.seq (.destruct o k) (.all (ks.map (.destruct o)))) _ s
    unfold runDestructors
    refine Run.performs_classAt_bind hc ?_
    split
    · next hf => exact Run.performs_seq_of_done (.destructNone hc hf) (ih hs hks.2)
    · next f hf =>
      refine Run.performs_look_bind (fun ob hob => ?_)
        fun e he => .seqStop (.gone e rfl (World.get?_eq_none_of_objectAt he)) nofun
      rw [World.objectAt_eq_ok_iff] at hob
      split
      · next hbegun => exact Run.performs_seq_of_done (.destructed hob hbegun) (ih hs hks.2)
      · next hbegun =>
        have hmarked := s.sound_after hs (.destructorMarked o k) trivial
        refine Run.performs_seq_begins (.destruct hob (by simpa using hbegun) hc hf) rfl
          (Run.performs_guarded hmarked
            (callMember_performs hrun hmarked f (some o) destructorName []) ?_ ?_)
        · intro _ v _ hv hleads
          exact ih hv fun k' hk' => hleads.registry.isSome_get? (hks.2 k' hk')
        · -- the mark is taken off where the destructor has failed, should the object still live
          intro e v _
          cases hlive : v.world.objects.get? o with
          | none =>
            have hevents : (Undo.forget o).events v.world = [] :=
              if_neg (by simp [Undo.object, hlive])
            refine ⟨.noSuchObject o.text, ?_⟩
            simp only [Run.bind_apply, Run.look_apply, World.objectAt, hlive, hevents,
              List.foldl_nil]
          | some ob' =>
            have hevents : (Undo.forget o).events v.world = [.destructorsForgotten o] :=
              if_pos (by simp [Undo.object, hlive])
            refine ⟨e, ?_⟩
            simp only [Run.bind_apply, Run.look_apply, World.objectAt, hlive, hevents,
              Run.happen_apply, Run.fail_apply, List.foldl_cons, List.foldl_nil]

theorem deleteObject_performs (o : ObjectId) :
    (deleteObject (enterFrame run) o).Performs (.delete o) s := by
  have hbegun := s.sound_after hs (.deletionBegun o) trivial
  unfold deleteObject
  refine Run.performs_look_bind (fun c hc => ?_)
    fun e he => .gone e rfl (hs.get?_eq_none_of_classOf he)
  obtain ⟨ob, hob, hc⟩ := World.classOf_eq_ok_iff.mp hc
  refine Run.performs_happen_bind (.delete hob hc) ?_
  refine Run.performs_bind hbegun
    (runDestructors_performs hrun hbegun o (hs.built.isSome_of_mem_heritage hc))
    fun _ u _ _ _ => ?_
  exact Run.performs_begins .remove (removeObject_apply o u)
    (Run.performs_of_apply (Run.pure_apply () _) (.done _))

/-! ### Options -/

theorem assignOption_performs (o : ObjectId) (v : Variable) (x : Value) :
    (assignOption (enterFrame run) o v x).Performs (.assign o v x) s := by
  have hassigned := s.sound_after hs (.assigned o v.fullName x) trivial
  unfold assignOption
  refine Run.performs_objectAt_bind rfl fun ob hob => ?_
  refine Run.performs_happen_bind (.assign hob) ?_
  unfold Variable.hooking
  cases v.hook with
  | none => exact Run.performs_of_apply rfl (.done _)
  | some code =>
    refine Run.performs_guarded hassigned (enterFrame_performs hrun hassigned _ _ _) ?_ ?_
    · intro _ u _ _ _
      exact Run.performs_of_apply rfl (.done _)
    · intro e u _
      refine ⟨.hook v.fullName e, ?_⟩
      simp only [Run.bind_apply, restore_apply, Run.fail_apply]

end Operations

/-! ### What running code can take up -/

section Code

variable {run : Code → List Value → Run Value} (hrun : ∀ c args, (run c args).Conforms)

include hrun

theorem runConstructor_performs {s : State} (hs : s.world.Sound) {f : MemberFunction}
    {o : ObjectId} {c : Class} (hc : s.world.registry.get? f.owner = some c)
    (hf : c.function? constructorName = some f) (args : List Value) :
    (runConstructor (enterFrame run) f o args).Performs (.constructor o f) s :=
  runConstructorWith_performs hrun hs hc hf
    (fun _ _ hu hk => constructClass_performs hrun hu o f.owner.index hk []) args

theorem destructOnward_performs {s : State} (hs : s.world.Sound) (o : ObjectId)
    (f : MemberFunction) (args : List Value) :
    (do
      if (← Run.look (·.objectAt o)).isDestructed f.owner then return Value.empty
      else
        Run.happen (.destructorMarked o f.owner)
        callMember (enterFrame run) f (if f.flags.isCommon then none else some o) f.fullName
          args).Performs (.destructOnward o f) s := by
  refine Run.performs_objectAt_bind rfl fun ob hob => ?_
  split
  · next hbegun => exact Run.performs_pure (.destructorBegun hob hbegun) _
  · next hbegun =>
    have hmarked := s.sound_after hs (.destructorMarked o f.owner) trivial
    refine Run.performs_happen_bind (.destructOnward hob (by simpa using hbegun)) ?_
    exact callMember_performs hrun hmarked _ _ _ _

omit hrun in
theorem callable_eq_ok_iff {target : Class} {n : String} {w : World} {f : MemberFunction} :
    callable target n w = .ok f ↔ target.resolveFunction? n = some f ∧
      mayCall (w.stack.current?.map (·.scope)) f target = true := by
  unfold callable
  cases hf : target.resolveFunction? n with
  | none => simp
  | some g =>
    simp only [bind_eq_ok_iff, checkAccess, Option.some.injEq]
    constructor
    · rintro ⟨_, haccess, hg⟩
      cases hg
      split at haccess
      · next h => exact ⟨rfl, h⟩
      · cases haccess
    · rintro ⟨rfl, h⟩
      exact ⟨(), by rw [if_pos h], rfl⟩

theorem invoke_conforms (o : ObjectId) (n : String) (args : List Value) :
    (invoke (enterFrame run) o n args).Conforms := by
  intro s hs
  unfold invoke
  refine Run.performs_code_look_bind fun c hc => Run.performs_code_look_bind fun f hf => ?_
  obtain ⟨ob, hob, hc⟩ := World.classOf_eq_ok_iff.mp hc
  obtain ⟨hresolve, haccess⟩ := callable_eq_ok_iff.mp hf
  exact Run.performs_task (.method hob hc hresolve haccess) (callMember_performs hrun hs _ _ _ _)

theorem invokeProc_conforms (k : ClassId) (n : String) (args : List Value) :
    (invokeProc (enterFrame run) k n args).Conforms := by
  intro s hs
  unfold invokeProc
  refine Run.performs_code_look_bind fun c hc => Run.performs_code_look_bind fun f hf => ?_
  rw [World.classAt_eq_ok_iff] at hc
  obtain ⟨hresolve, haccess⟩ := callable_eq_ok_iff.mp hf
  split
  · exact Run.performs_code_of_apply rfl
  · next hkind =>
    have hcommon : f.flags.isCommon = true ∨ f.flags.isBuiltin = true := by
      cases hc : f.flags.isCommon <;> cases hb : f.flags.isBuiltin <;> simp_all
    exact Run.performs_task (.procedure hc hresolve haccess hcommon)
      (callMember_performs hrun hs _ _ _ _)

theorem evalWithin_conforms (k : ClassId) (o : Option ObjectId) (e : Expr) (args : List Value) :
    (evalWithin (enterFrame run) k o e args).Conforms := by
  intro s hs
  unfold evalWithin
  refine Run.performs_code_look_bind fun _ hscope => ?_
  exact Run.performs_task (.scope hscope) (enterFrame_performs hrun hs _ _ _)

/-- The function that chaining leads to is registered. -/
theorem chain_conforms (args : List Value) : (chain (enterFrame run) args).Conforms := by
  intro s hs
  unfold chain
  have hu := s.sound_after hs .chained trivial
  refine Run.performs_chained_bind hs (Run.performsChained_look_bind fun target htarget => ?_)
  generalize s.after .chained = u at hu htarget ⊢
  cases target with
  | none => exact Or.inl (Run.performs_code_of_apply rfl)
  | some f =>
    obtain ⟨g, m, c, k', d, hg, -, -, -, -, -, hd, hf⟩ := World.exists_of_chainTarget htarget
    refine Run.performsChained_look_bind fun ⟨k, object⟩ hcontext => ?_
    have hobject : object = g.object := by
      rw [World.context_eq hg] at hcontext
      cases hcontext
      rfl
    -- which task it is depends on what is chained to, and on whether there is an object
    dsimp only
    split
    · next hctor =>
      refine Run.performsChained_world_bind ?_
      cases ho : u.world.building.head?.or object with
      | none => exact Or.inl (Run.performs_code_of_apply rfl)
      | some o =>
        have hchain : u.world.chainObject? = some o := by
          unfold World.chainObject?
          rw [hg, Option.bind_some, ← hobject]
          exact ho
        obtain ⟨howner, -⟩ := hu.built.function?_spec hd hf
        exact Or.inr ⟨.constructor o f, trivial, .constructOnward htarget hctor hchain,
          runConstructor_performs hrun hu (howner.symm ▸ hd)
            (hu.built.function?_constructorName hd hf hctor) args⟩
    · next hctor =>
      have hctor : f.flags.isConstructor = false := by simpa using hctor
      have honward (hdtor : f.flags.isDestructor = false ∨ g.object = none) :
          (callMember (enterFrame run) f (if f.flags.isCommon then none else object) f.fullName
            args).PerformsChained u := by
        rw [hobject]
        exact Or.inl (Run.performs_task (.onward hg htarget hctor hdtor)
          (callMember_performs hrun hu _ _ _ _))
      cases hobj : object with
      | none =>
        rw [hobj] at honward hobject
        exact honward (Or.inr hobject.symm)
      | some o =>
        rw [hobj] at honward hobject
        dsimp only
        split
        · next hdtor =>
          exact Or.inr ⟨.destructOnward o f, hctor,
            .destructOnward hg htarget hctor hdtor hobject.symm,
            destructOnward_performs hrun hu o f args⟩
        · next hdtor => exact honward (Or.inl (by simpa using hdtor))

omit hrun in
theorem defineClass_conforms (d : ClassDecl Expr) : (defineClass d).Conforms := by
  intro s _
  unfold defineClass
  refine Run.performs_code_look_bind fun c hc => ?_
  have hadmitted : s.world.Admits (.classRegistered c) := ⟨d, hc⟩
  exact Run.performs_map ⟨[.classRegistered c], rfl, .plain hadmitted trivial⟩ c.id

theorem createObject_conforms (cls : ClassId) (name : String) (args : List Value) :
    (createObject (enterFrame run) cls name args).Conforms :=
  fun _ hs => Run.performs_task (.create cls name) (createObject_performs hrun hs cls name args)

theorem deleteObject_conforms (o : ObjectId) : (deleteObject (enterFrame run) o).Conforms :=
  fun _ hs => Run.performs_task (.delete o) (deleteObject_performs hrun hs o)

/-- The options are those of the class of the object, as long as it lives. -/
theorem assignOptions_performs {s : State} (hs : s.world.Sound) {c : Class} {o : ObjectId}
    (ho : o.number ≤ s.world.objects.created)
    (hc : ∀ ob, s.world.objects.get? o = some ob → s.world.registry.get? ob.cls = some c)
    (args : List Value) : (assignOptions (enterFrame run) c o args).Performs .code s := by
  have hanswer {α β : Type} {a : Except DispatchError α} {f : α → Run β} {u : State}
      (hf : ∀ x, a = .ok x → (f x).Performs .code u) : (Run.answer a >>= f).Performs .code u := by
    cases a with
    | ok x => exact hf x rfl
    | error e => exact Run.performs_code_of_apply rfl
  fun_induction assignOptions (enterFrame run) c o args generalizing s with
  | case1 => exact Run.performs_code_of_apply rfl
  | case2 => exact hanswer fun _ _ => Run.performs_code_of_apply rfl
  | case3 token value rest ih =>
    refine hanswer fun entry hentry => ?_
    obtain ⟨n, hn, -⟩ := exists_of_findOption hentry
    have hassign : s.world.Available (.assign o entry.var value) :=
      .assign ho fun ob hob => ⟨c, n, entry, hc ob hob, hn, rfl⟩
    refine Run.performs_code_bind hs
      (Run.performs_task hassign (assignOption_performs hrun hs o entry.var value))
      fun _ u _ hu hleads => ?_
    -- the hook may have removed the object, but it cannot have changed its class
    exact ih hu (Nat.le_trans ho hleads.created) (hleads.classes ho hc)

theorem configure_conforms {evaluate : Evaluate} (hevaluate : ∀ e args, (evaluate e args).Conforms)
    (args : List Value) : (configure (enterFrame run) evaluate args).Conforms := by
  intro s hs
  unfold configure
  refine Run.performs_code_look_bind fun ⟨o, c⟩ hscope => ?_
  obtain ⟨ob, hob, hc⟩ := exists_of_optionScope hscope
  have ho := hs.allocated o ob hob
  have hclasses := World.classes_of_get? hob hc
  have hdelegated := Run.conforms_law.delegated
    (fun v => Run.conforms_happen (.logged v) (fun _ => trivial) trivial) hevaluate c o "configure"
    args
  refine Run.performs_code_bind hs (hdelegated s hs) fun answer u _ hu hleads => ?_
  split
  · exact Run.performs_code_of_apply rfl
  · split
    · exact Run.performs_code_of_apply (Run.look_apply _ _)
    · split
      · exact Run.performs_code_of_apply rfl
      · exact Run.conforms_law.bind (Run.conforms_law.answer _)
          (fun _ => Run.conforms_law.look _) u hu
    · exact Run.performs_map (assignOptions_performs hrun hu (Nat.le_trans ho hleads.created)
        (hleads.classes ho hclasses) args) Value.empty

end Code

/-! ### Evaluation -/

theorem conforms_evaluationLaw : EvaluationLaw Run.Conforms where
  toLaw := Run.conforms_law
  operations hrun :=
    { toCompositional := Run.conforms_law.toCompositional
      logged := fun v => Run.conforms_happen (.logged v) (fun _ => trivial) trivial
      loaderInstalled := fun l =>
        Run.conforms_happen (.loaderInstalled l) (fun _ => trivial) trivial
      delegateInstalled := fun e =>
        Run.conforms_happen (.delegateInstalled e) (fun _ => trivial) trivial
      setVariable := Run.conforms_assignmentLaw.setVariable
      unsetVariable := Run.conforms_assignmentLaw.unsetVariable
      bindComponent := Run.conforms_assignmentLaw.bindComponent
      defineClass := defineClass_conforms
      invoke := invoke_conforms hrun
      invokeProc := invokeProc_conforms hrun
      evalWithin := evalWithin_conforms hrun
      chain := chain_conforms hrun
      createObject := createObject_conforms hrun
      deleteObject := deleteObject_conforms hrun
      configure := configure_conforms hrun }

/-- **Every evaluation follows a course.** -/
theorem evaluate_conforms (loads frames : Nat) (e : Expr) (args : List Value) :
    (evaluate loads frames e args).Conforms :=
  conforms_evaluationLaw.evaluate loads frames e args

end ObjectDispatch
