import ObjectDispatch.Proofs.History

/-!
# Evaluation ends

Three recursions lead through an evaluation, and each has an end of its own.
Expressions are finite.  Code that runs in a frame has fewer frames left than the code
that entered it, because the stack has a limit; and at the limit a frame is refused
before it is entered.  Superclasses, which are constructed without a frame in between,
have smaller numbers than the class that inherits from them.

Only class loaders can call each other without end, since asking a loader enters no
frame.  So an evaluation that does not end has a class loader to ask.  That there is
one is all the excuse it needs here; what else could be asked of it is left open in the
lemmas that lead there.

## Main definitions

* `World.Grants` — the frames that are granted are as many as the stack has room for.
* `Excuse` — what is said of a run that does not end.
* `Run.Ends` — a run that ends, or else is excused.

## Main results

* `constructClass_ends` — the construction of superclasses ends.
* `runCode_operationLaw` — every operation ends, for any number of frames.
* `step_ends` — a step ends, or else it has a class loader.
* `session_ends` — **in a session that installs no class loader every step ends.**
-/

namespace ObjectDispatch

/-! ### Worlds and runs -/

/-- The registry is what definitions made, and `n` further frames are as many as the
stack has room for. -/
structure World.Grants (n : Nat) (w : World) : Prop where
  built : w.registry.Built w.options
  room : w.stack.limit ≤ w.stack.depth + n

/-- What is said of a run that does not end, `excused` of the state where it stops.  What
is `kept` by every event may be relied on. -/
structure Excuse where
  kept : State → Prop
  kept_after : ∀ s e, kept s → kept (s.after e)
  excused : State → Prop

namespace Run

variable {α β : Type} {x : Excuse} {n : Nat} {s : State}

/-- `n` frames are granted in the state, and what is kept holds there. -/
structure Begins (x : Excuse) (n : Nat) (s : State) : Prop where
  grants : s.world.Grants n
  kept : x.kept s

/-- From the state `s` on, the run ends in a state as it began, or it does not end and is
excused. -/
def EndsFrom (x : Excuse) (n : Nat) (r : Run α) (s : State) : Prop :=
  ((r s).1 = .exhausted → x.excused (r s).2) ∧ ((r s).1 ≠ .exhausted → Begins x n (r s).2)

/-- From every state on that grants `n` frames, the run ends, or else is excused. -/
def Ends (x : Excuse) (n : Nat) (r : Run α) : Prop := ∀ s, Begins x n s → r.EndsFrom x n s

theorem endsFrom_of_state {r : Run α} (hs : Begins x n s) (hstate : (r s).2 = s)
    (hend : (r s).1 ≠ .exhausted) : r.EndsFrom x n s := by
  refine ⟨fun hexhausted => absurd hexhausted hend, fun _ => ?_⟩
  rw [hstate]
  exact hs

theorem endsFrom_bind {r : Run α} {f : α → Run β} (hr : r.EndsFrom x n s)
    (hf : ∀ a t, Begins x n t → r s = (.value a, t) → (f a).EndsFrom x n t) :
    (r >>= f).EndsFrom x n s := by
  unfold EndsFrom
  rw [bind_apply]
  obtain ⟨hexcused, hends⟩ := hr
  cases hrun : r s with
  | mk out t =>
    rw [hrun] at hexcused hends
    cases out with
    | value a => exact hf a t (hends nofun) hrun
    | failure e => exact ⟨nofun, fun _ => hends nofun⟩
    | exhausted => exact ⟨fun _ => hexcused rfl, fun hend => absurd rfl hend⟩

theorem endsFrom_look_bind {g : World → Except DispatchError α} {f : α → Run β}
    (hs : Begins x n s) (hf : ∀ a, g s.world = .ok a → (f a).EndsFrom x n s) :
    (look g >>= f).EndsFrom x n s := by
  unfold EndsFrom
  cases hg : g s.world with
  | ok a =>
    rw [look_bind_of_ok hg]
    exact hf a hg
  | error e =>
    rw [look_bind_of_error hg]
    exact ⟨nofun, fun _ => hs⟩

theorem endsFrom_world_bind {f : World → Run β} (hf : (f s.world).EndsFrom x n s) :
    (world >>= f).EndsFrom x n s := hf

theorem ends_compositional : Run.Compositional (Ends x n) where
  pure _ _ hs := endsFrom_of_state hs rfl nofun
  fail _ _ hs := endsFrom_of_state hs rfl nofun
  world _ hs := endsFrom_of_state hs rfl nofun
  look g s hs := by
    unfold EndsFrom
    rw [look_apply]
    cases g s.world <;> exact ⟨nofun, fun _ => hs⟩
  bind hr hf s hs := endsFrom_bind (hr s hs) fun a t ht _ => hf a t ht
  attempt {α r} hr s hs := by
    obtain ⟨hexcused, hends⟩ := hr s hs
    unfold EndsFrom
    rw [attempt_apply]
    cases hrun : r s with
    | mk out t =>
      rw [hrun] at hexcused hends
      cases out with
      | exhausted => exact ⟨fun _ => hexcused rfl, fun hend => absurd rfl hend⟩
      | _ => exact ⟨nofun, fun _ => hends nofun⟩

theorem ends_happen {e : Event} (he : ∀ w : World, w.Grants n → (w.after e).Grants n) :
    (happen e).Ends x n :=
  fun s hs => ⟨nofun, fun _ => ⟨he s.world hs.grants, x.kept_after s e hs.kept⟩⟩

end Run

/-! ### Frames and definitions -/

variable {x : Excuse} {n : Nat}

theorem World.Grants.after_of_isLocal {w : World} (hw : w.Grants n) {e : Event} (he : e.IsLocal) :
    (w.after e).Grants n := by
  refine ⟨Session.built_after hw.built (w.admits_of_isLocal he), ?_⟩
  rw [(w.sameFrames_after he).stack]
  exact hw.room

theorem defineClass_ends (d : ClassDecl Expr) : (defineClass d).Ends x n := by
  intro s hs
  unfold defineClass
  apply Run.endsFrom_look_bind hs
  intro c hc
  have hgrants : (s.world.after (.classRegistered c)).Grants n :=
    ⟨Session.built_after hs.grants.built ⟨d, hc⟩, hs.grants.room⟩
  exact ⟨nofun, fun _ => ⟨hgrants, x.kept_after s _ hs.kept⟩⟩

/-- What runs in a frame is granted one frame less.  Where no frame is granted, there
is no room for one either. -/
theorem enterFrame_ends {run : Code → List Value → Run Value}
    (hrun : ∀ m, n = m + 1 → ∀ c args, (run c args).Ends x m) (f : Frame) (a : Activity)
    (args : List Value) : (enterFrame run f a args).Ends x n := by
  intro s hs
  unfold Run.EndsFrom
  rw [enterFrame_apply]
  split
  · exact ⟨nofun, fun _ => ⟨⟨hs.grants.built, hs.grants.room⟩, x.kept_after s _ hs.kept⟩⟩
  · next hroom =>
    obtain ⟨m, rfl⟩ : ∃ m, n = m + 1 := Nat.exists_eq_succ_of_ne_zero fun hn => by
      have hlimit := hs.grants.room
      omega
    have hentered : (s.after (.entered f a)).world.Grants m := by
      refine ⟨hs.grants.built, ?_⟩
      have hlimit := hs.grants.room
      show s.world.stack.limit ≤ s.world.stack.depth + 1 + m
      omega
    obtain ⟨hexcused, hends⟩ :=
      hrun m rfl a.code args _ ⟨hentered, x.kept_after s _ hs.kept⟩
    -- leaving the frame gives back the room that it took
    have hleft {t : State} (ht : Run.Begins x m t) (e : Option DispatchError) :
        Run.Begins x (m + 1) (t.after (.left e)) := by
      refine ⟨⟨ht.grants.built, ?_⟩, x.kept_after t _ ht.kept⟩
      have hlimit := ht.grants.room
      show t.world.stack.limit ≤ t.world.stack.depth - 1 + (m + 1)
      omega
    cases hcode : run a.code args (s.after (.entered f a)) with
    | mk out t =>
      rw [hcode] at hexcused hends
      cases out with
      | value v => exact ⟨nofun, fun _ => hleft (hends nofun) none⟩
      | failure e => exact ⟨nofun, fun _ => hleft (hends nofun) (some e)⟩
      | exhausted => exact ⟨hexcused, fun hend => absurd rfl hend⟩

theorem ends_frameLaw {run : Code → List Value → Run Value}
    (hrun : ∀ m, n = m + 1 → ∀ c args, (run c args).Ends x m) :
    FrameLaw (enterFrame run) (Run.Ends x n) where
  toCompositional := Run.ends_compositional
  happen _ he := Run.ends_happen fun _ hw => hw.after_of_isLocal he
  defineClass := defineClass_ends
  enterFrame := enterFrame_ends hrun

/-! ### Construction -/

section Construction

variable {enter : Enter} (h : FrameLaw enter (Run.Ends x n))

include h

/-- The superclasses of a class have smaller numbers. -/
theorem runConstructorWith_ends {super : ClassId → Run Unit} {f : MemberFunction}
    (hsuper : ∀ k, k.index < f.owner.index → (super k).Ends x n) (o : ObjectId)
    (args : List Value) : (runConstructorWith enter super f o args).Ends x n := by
  unfold runConstructorWith
  refine h.bind (h.look _) fun _ => ?_
  split
  · exact h.pure _
  · refine h.bind (h.happen _ trivial) fun _ => h.bind (h.callLaw.runInitializer _ _ _) fun _ => ?_
    intro s hs
    apply Run.endsFrom_look_bind hs
    intro c hc
    rw [World.classAt_eq_ok_iff] at hc
    have hsupers : ∀ k ∈ c.supers, (super k).Ends x n := fun k hk =>
      hsuper k (hs.grants.built.index_lt_of_mem_supers hc hk)
    exact h.bind (h.forM_of_mem hsupers) (fun _ => h.callLaw.callMember _ _ _ _) s hs

/-- **The construction of superclasses ends**: an induction on the number below which
the class is. -/
theorem constructClass_ends (o : ObjectId) {depth : Nat} {k : ClassId} (hk : k.index < depth)
    (args : List Value) : (constructClass enter o depth k args).Ends x n := by
  induction depth generalizing k args with
  | zero => exact absurd hk (Nat.not_lt_zero _)
  | succ depth ih =>
    unfold constructClass
    refine h.bind (h.look _) fun _ => ?_
    split
    · exact h.pure _
    · intro s hs
      apply Run.endsFrom_look_bind hs
      intro c hc
      rw [World.classAt_eq_ok_iff] at hc
      split
      · next f hf =>
        -- the constructor is that of the class, and so are the superclasses
        have howner : f.owner = k := (hs.grants.built.function?_spec hc hf).1
        refine h.bind (runConstructorWith_ends h (fun super hsuper => ih ?_ []) o args)
          (fun _ => h.pure _) s hs
        rw [howner] at hsuper
        omega
      · have hmark : (Event.constructorMarked o k).IsLocal := trivial
        refine h.bind (h.happen _ hmark) (fun _ => h.forM_of_mem fun super hsuper => ih ?_ []) s hs
        have hsmaller := hs.grants.built.index_lt_of_mem_supers hc hsuper
        omega

theorem runConstructor_ends (f : MemberFunction) (o : ObjectId) (args : List Value) :
    (runConstructor enter f o args).Ends x n :=
  runConstructorWith_ends h (fun _ hk => constructClass_ends h o hk []) o args

theorem createObject_ends (cls : ClassId) (name : String) (args : List Value) :
    (createObject enter cls name args).Ends x n := by
  have hkeeps {e : Event} (hregistry : ∀ w : World, (w.after e).registry = w.registry)
      (hstack : ∀ w : World, (w.after e).stack = w.stack) : (Run.happen e).Ends x n :=
    Run.ends_happen fun w hw => by
      refine ⟨?_, ?_⟩
      · rw [hregistry, Session.options_after]
        exact hw.built
      · rw [hstack]
        exact hw.room
  unfold createObject
  refine h.bind (h.look _) fun c => h.bind h.world fun w => ?_
  split
  · exact h.fail _
  · split
    · exact h.fail _
    · refine h.bind (hkeeps (fun _ => rfl) fun _ => rfl) fun _ => ?_
      refine h.bind (h.assignments.initializeVariables _ _) fun _ => ?_
      refine h.bind (hkeeps (fun _ => rfl) fun _ => rfl) fun _ => ?_
      have hconstruct := constructClass_ends h w.objects.nextId (Nat.lt_succ_self cls.index) args
      apply h.bind (h.attempt hconstruct)
      intro result
      refine h.bind (hkeeps (fun _ => rfl) fun _ => rfl) fun _ => ?_
      split
      · exact h.pure _
      · exact h.bind (h.callLaw.removeObject _) fun _ => h.fail _

end Construction

/-! ### Evaluation -/

/-- Looking a class up ends if asking the loader does. -/
theorem resolveClass_ends {consult : Evaluate}
    (hload : ∀ s, Run.Begins x n s → ∀ loader, s.world.loader = some loader →
      ∀ name, (load consult loader name).EndsFrom x n s)
    (name : String) (autoload : Bool) : (resolveClass consult name autoload).Ends x n := by
  have h := Run.ends_compositional (x := x) (n := n)
  intro s hs
  unfold resolveClass
  refine Run.endsFrom_world_bind ?_
  split
  · exact h.pure _ s hs
  · split
    · exact h.fail _ s hs
    · next loader hloader =>
      split
      · exact h.fail _ s hs
      · refine Run.endsFrom_bind (hload s hs loader hloader name)
          fun _ t ht _ => Run.endsFrom_world_bind ?_
        split
        · exact h.pure _ t ht
        · exact h.fail _ t ht

/-- **Every operation ends**, for any number of frames, if it ends for the loader calls
that are granted in each: an induction on how many frames are granted. -/
theorem runCode_operationLaw {loads : Nat}
    (hloading : ∀ n, OperationLaw (enterFrame (runCode loads n)) (Run.Ends x n) →
      ∀ e args, (evaluateLoading (enterFrame (runCode loads n)) loads e args).Ends x n)
    (n : Nat) :
    OperationLaw (enterFrame (runCode loads n)) (Run.Ends x n) := by
  have hlaw {n : Nat} (hrun : ∀ m, n = m + 1 → ∀ c args, (runCode loads n c args).Ends x m) :
      OperationLaw (enterFrame (runCode loads n)) (Run.Ends x n) := by
    have h := ends_frameLaw hrun
    exact h.toOperationLaw (runConstructor_ends h) (createObject_ends h)
  induction n with
  | zero => exact hlaw nofun
  | succ n ih =>
    apply hlaw
    intro m hm c args
    obtain rfl : n = m := Nat.succ.inj hm
    cases c with
    | script e => exact hloading n ih e args
    | builtin b => exact ih.runBuiltin (hloading n ih) args b

/-- The excuse of having a class loader. -/
def Excuse.loader : Excuse where
  kept _ := True
  kept_after _ _ _ := trivial
  excused s := s.world.loader.isSome

/-- A loader that is not to be asked further is there all the same. -/
theorem load_exhaust_endsFrom {s : State} (hs : Run.Begins .loader n s) (loader : ClassLoader)
    (name : String) (hloader : s.world.loader = some loader) :
    (load (fun _ _ => Run.exhaust) loader name).EndsFrom .loader n s := by
  have hlogged := hs.grants.after_of_isLocal
    (e := .logged (.list [.str "autoload", .str name])) trivial
  have hsome : s.world.loader.isSome := by rw [hloader]; rfl
  unfold load
  cases loader.find? name with
  | none => exact ⟨nofun, fun _ => ⟨hlogged, trivial⟩⟩
  | some code => exact ⟨fun _ => hsome, fun hend => absurd rfl hend⟩

theorem evaluateLoading_ends {enter : Enter} (h : OperationLaw enter (Run.Ends .loader n))
    (loads : Nat) (e : Expr) (args : List Value) :
    (evaluateLoading enter loads e args).Ends .loader n :=
  h.evaluateLoading (resolveClass_ends fun _ hs loader hloader name =>
    load_exhaust_endsFrom hs loader name hloader) loads e args

/-! ### Steps and sessions -/

/-- A class loader has been there before, or it has been installed. -/
theorem World.loader_replay {w : World} {es : List Event} (h : (w.replay es).loader.isSome) :
    w.loader.isSome ∨ ∃ l, .loaderInstalled l ∈ es := by
  induction es generalizing w with
  | nil => exact Or.inl h
  | cons e es ih =>
    rcases ih h with hloader | ⟨l, hl⟩
    · cases e with
      | loaderInstalled l => exact Or.inr ⟨l, List.mem_cons_self⟩
      | _ => exact Or.inl hloader
    · exact Or.inr ⟨l, List.mem_cons_of_mem e hl⟩

namespace Session

variable {w : World}

/-- **A step ends, or else it has a class loader**: the frames granted to it are as many
as the stack may hold. -/
theorem step_ends (hw : w.registry.Built w.options) (loads : Nat) (e : Expr) :
    ((step loads w e).1 = .exhausted → (step loads w e).2.world.loader.isSome) ∧
    ((step loads w e).1 ≠ .exhausted →
      (step loads w e).2.world.registry.Built (step loads w e).2.world.options) := by
  have hgrants : w.Grants w.stack.limit := ⟨hw, Nat.le_add_left _ _⟩
  have hoperations : OperationLaw (enterFrame (runCode loads w.stack.limit))
      (Run.Ends .loader w.stack.limit) :=
    runCode_operationLaw (fun _ h => evaluateLoading_ends h loads) _
  have hends := evaluateLoading_ends hoperations loads e [] { world := w } ⟨hgrants, trivial⟩
  exact ⟨hends.1, fun hend => (hends.2 hend).grants.built⟩

/-- All steps end if each that finds the world in order does, lets only allowed events
happen and leaves the world in order. -/
theorem steps_end_of_step {loads : Nat} {I : World → Prop} {A : Event → Prop}
    (hstep : ∀ w e, I w → (∀ ev ∈ (step loads w e).2.journal, A ev) →
      (step loads w e).1 ≠ .exhausted ∧ I (step loads w e).2.world)
    {es : List Expr} (hw : I w) (hes : ∀ ev ∈ history loads w es, A ev) :
    ∀ r ∈ steps loads w es, r.outcome ≠ .exhausted := by
  induction es generalizing w with
  | nil => exact nofun
  | cons e es ih =>
    unfold history at hes
    obtain ⟨hend, hnext⟩ := hstep w e hw fun ev hev =>
      hes ev (List.mem_append_left _ (List.mem_reverse.mpr hev))
    rw [if_neg hend] at hes
    intro r hr
    rcases List.mem_cons.mp hr with rfl | hr
    · exact hend
    · exact ih hnext (fun ev hev => hes ev (List.mem_append_right _ hev)) r hr

/-- Where there is no class loader and none is installed, there is none afterwards. -/
theorem loader_step (hloader : w.loader.isSome = false) {loads : Nat} {e : Expr}
    (hinstalls : ∀ l, .loaderInstalled l ∉ (step loads w e).2.journal) :
    (step loads w e).2.world.loader.isSome = false := by
  by_contra hsome
  rw [Bool.not_eq_false, step_world] at hsome
  rcases World.loader_replay hsome with hbefore | ⟨l, hl⟩
  · rw [hloader] at hbefore
    cases hbefore
  · exact hinstalls l (List.mem_reverse.mp hl)

theorem steps_end (loads : Nat) {es : List Expr} (hw : w.registry.Built w.options)
    (hloader : w.loader.isSome = false)
    (hinstalls : ∀ l, .loaderInstalled l ∉ history loads w es) :
    ∀ r ∈ steps loads w es, r.outcome ≠ .exhausted := by
  refine steps_end_of_step
    (I := fun w => w.registry.Built w.options ∧ w.loader.isSome = false)
    (A := fun ev => ∀ l, ev ≠ .loaderInstalled l) ?_ ⟨hw, hloader⟩
    fun ev hev l hl => hinstalls l (hl ▸ hev)
  rintro v e ⟨hv, hbefore⟩ hjournal
  have hnone := loader_step hbefore fun l hl => hjournal _ hl l rfl
  obtain ⟨hexhausted, hbuilt⟩ := step_ends hv loads e
  have hend : (step loads v e).1 ≠ .exhausted := by
    intro h
    rw [hexhausted h] at hnone
    cases hnone
  exact ⟨hend, hbuilt hend, hnone⟩

end Session

/-- **In a session that installs no class loader every step ends**, with a value or with
an error, whatever the options, the classes and their code, and however few nested
loader calls are granted. -/
theorem session_ends (loads : Nat) (o : EngineOptions) (es : List Expr)
    (hinstalls : ∀ l, .loaderInstalled l ∉ Session.history loads (World.initial o) es) :
    ∀ r ∈ Session.run loads o es,
      (∃ v, r.outcome = .value v) ∨ ∃ e, r.outcome = .failure e := by
  intro r hr
  have hend := Session.steps_end loads .empty rfl hinstalls r hr
  cases houtcome : r.outcome with
  | value v => exact Or.inl ⟨v, rfl⟩
  | failure e => exact Or.inr ⟨e, rfl⟩
  | exhausted => exact absurd houtcome hend

/-- Defines a class with a method that calls itself and an option whose hook sets the
option again, creates an object of it, calls the method and sets the option. -/
def runaway : List Expr :=
  [.defineClass
      { name := "Loop"
        members := [
          .method "again" .pub (.invoke none (.const (.str "again")) []),
          .option "size" none
            (.invoke none (.const (.str "configure")) [.const (.str "-size"), .const (.int 1)])] },
    .create (some (.const (.str "Loop"))) (.const (.str "l")) [],
    .invoke (some (.const (.str "l"))) (.const (.str "again")) [],
    .invoke (some (.const (.str "l"))) (.const (.str "configure"))
      [.const (.str "-size"), .const (.int 1)]]

/-- The calls that never return to anything but themselves end with errors. -/
theorem runaway_ends :
    ((Session.run 0 { maxCallDepth := 4 } runaway).map
      fun r => match r.outcome with | .failure e => some e.kind | _ => none) =
        [none, none, some "Usage", some "Config"] ∧
    ∀ r ∈ Session.run 0 { maxCallDepth := 4 } runaway,
      (∃ v, r.outcome = .value v) ∨ ∃ e, r.outcome = .failure e := by
  have hinstalls : (Session.history 0 (World.initial { maxCallDepth := 4 }) runaway).all
      (fun e => match e with | .loaderInstalled _ => false | _ => true) = true := by
    decide +kernel
  refine ⟨by decide +kernel, session_ends 0 { maxCallDepth := 4 } runaway fun l hl => ?_⟩
  cases List.all_eq_true.mp hinstalls _ hl

end ObjectDispatch
