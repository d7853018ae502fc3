import ObjectDispatch.Proofs.History

/-!
# Limits that are not reached

The limit decides whether a frame is refused, and nothing else: no code can read it.  So
a session in which no frame is refused goes the same way under every higher limit, step
by step, with the same answers and the same log, and ends in the same world.

Both sessions are evaluated side by side.  Under the higher limit more frames are
granted, which makes no difference as long as those of the lower limit are not used up;
and they are not, because a frame is refused before.

## Main definitions

* `State.Refused`, `Session.NeverRefuses` — whether a frame has been refused.
* `Run.Alike` — runs that do the same unless the first refuses a frame.
* `Session.final` — the world at the end of a session.

## Main results

* `enterFrame_alike` — frames that are entered under both limits.
* `runCode_alike` — **code does the same under a higher limit.**
* `runs_of_higher_limit` — so do sessions.
-/

namespace ObjectDispatch

/-! ### Refused frames -/

/-- A frame is refused. -/
def Event.isRefusal : Event → Bool
  | .refused _ _ => true
  | _ => false

namespace State

/-- A frame has been refused. -/
def Refused (s : State) : Prop := ∃ e ∈ s.journal, e.isRefusal = true

instance (s : State) : Decidable s.Refused :=
  inferInstanceAs (Decidable (∃ e ∈ s.journal, e.isRefusal = true))

/-- The state with another limit on frames. -/
def withLimit (s : State) (m : Nat) : State := { s with world := s.world.withLimit m }

theorem withLimit_after (s : State) (e : Event) (m : Nat) :
    (s.after e).withLimit m = (s.withLimit m).after e := by
  cases e <;> rfl

theorem Refused.after {s : State} (h : s.Refused) (e : Event) : (s.after e).Refused := by
  obtain ⟨r, hr, hrefusal⟩ := h
  exact ⟨r, List.mem_cons_of_mem e hr, hrefusal⟩

/-- With `n` further frames the stack is full, and its limit is not above `m`. -/
structure Room (n m : Nat) (s : State) : Prop where
  full : s.world.stack.limit ≤ s.world.stack.depth + n
  below : s.world.stack.limit ≤ m

theorem Room.of_stack_eq {n m : Nat} {s t : State} (hs : s.Room n m)
    (h : t.world.stack = s.world.stack) : t.Room n m := by
  constructor
  · rw [h]
    exact hs.full
  · rw [h]
    exact hs.below

end State

/-! ### Runs under both limits -/

namespace Run

variable {α β : Type} {n m : Nat} {s : State}

/-- From the state `s` on, `r` ends with `out` in `t`, with the frames it began with if it
ends at all; and unless it refuses a frame, `r'` does the same under the limit `m`. -/
structure EndsAlike (m : Nat) (r r' : Run α) (s : State) (out : Outcome α) (t : State) : Prop where
  apply_eq : r s = (out, t)
  refused : s.Refused → t.Refused
  stack_eq : out ≠ .exhausted → t.world.stack = s.world.stack
  same : ¬ t.Refused → r' (s.withLimit m) = (out, t.withLimit m)

/-- From every state on in which the stack is full with `n` further frames, and whose limit
is at most `m`, `r'` does under the limit `m` what `r` does, unless `r` refuses a frame. -/
def Alike (n m : Nat) (r r' : Run α) : Prop :=
  ∀ s, s.Room n m → ∃ out t, EndsAlike m r r' s out t

theorem endsAlike_of_apply {r r' : Run α} {out : Outcome α} (hr : r s = (out, s))
    (hr' : r' (s.withLimit m) = (out, s.withLimit m)) : EndsAlike m r r' s out s where
  apply_eq := hr
  refused h := h
  stack_eq _ := rfl
  same _ := hr'

theorem alike_bind {r r' : Run α} {f f' : α → Run β} (hr : r.Alike n m r')
    (hf : ∀ a, (f a).Alike n m (f' a)) : (r >>= f).Alike n m (r' >>= f') := by
  intro s hs
  obtain ⟨out, t, h⟩ := hr s hs
  cases out with
  | value a =>
    have hstack := h.stack_eq Outcome.value_ne_exhausted
    obtain ⟨out, u, h'⟩ := hf a t (hs.of_stack_eq hstack)
    refine ⟨out, u, ?_, fun hrefused => h'.refused (h.refused hrefused),
      fun hend => (h'.stack_eq hend).trans hstack, fun hnot => ?_⟩
    · rw [bind_apply, h.apply_eq]
      exact h'.apply_eq
    · rw [bind_apply, h.same fun hrefused => hnot (h'.refused hrefused)]
      exact h'.same hnot
  | failure e =>
    have hstack := h.stack_eq Outcome.failure_ne_exhausted
    refine ⟨.failure e, t, ?_, h.refused, fun _ => hstack, fun hnot => ?_⟩
    · rw [bind_apply, h.apply_eq]
    · rw [bind_apply, h.same hnot]
  | exhausted =>
    refine ⟨.exhausted, t, ?_, h.refused, fun hend => absurd rfl hend, fun hnot => ?_⟩
    · rw [bind_apply, h.apply_eq]
    · rw [bind_apply, h.same hnot]

theorem alike_attempt {r r' : Run α} (hr : r.Alike n m r') :
    (attempt r).Alike n m (attempt r') := by
  intro s hs
  obtain ⟨out, t, h⟩ := hr s hs
  cases out with
  | value a =>
    have hstack := h.stack_eq Outcome.value_ne_exhausted
    refine ⟨.value (.ok a), t, ?_, h.refused, fun _ => hstack, fun hnot => ?_⟩
    · rw [attempt_apply, h.apply_eq]
    · rw [attempt_apply, h.same hnot]
  | failure e =>
    have hstack := h.stack_eq Outcome.failure_ne_exhausted
    refine ⟨.value (.error e), t, ?_, h.refused, fun _ => hstack, fun hnot => ?_⟩
    · rw [attempt_apply, h.apply_eq]
    · rw [attempt_apply, h.same hnot]
  | exhausted =>
    refine ⟨.exhausted, t, ?_, h.refused, fun hend => absurd rfl hend, fun hnot => ?_⟩
    · rw [attempt_apply, h.apply_eq]
    · rw [attempt_apply, h.same hnot]

/-- **Putting runs together keeps them alike.** -/
theorem alike_congruence : Run.Congruence (Alike n m) where
  pure _ _ _ := ⟨_, _, endsAlike_of_apply rfl rfl⟩
  fail _ _ _ := ⟨_, _, endsAlike_of_apply rfl rfl⟩
  look {α f} hf s _ := by
    have hread : f (s.withLimit m).world = f s.world := hf s.world m
    refine ⟨_, s, endsAlike_of_apply (look_apply f s) ?_⟩
    rw [look_apply, hread]
  world {α f f'} hf' h s hs := by
    have hread : f' (s.withLimit m).world = f' s.world := hf' s.world m
    obtain ⟨out, t, h⟩ := h s.world s hs
    refine ⟨out, t, h.apply_eq, h.refused, h.stack_eq, fun hnot => ?_⟩
    show f' (s.withLimit m).world (s.withLimit m) = _
    rw [hread]
    exact h.same hnot
  bind := alike_bind
  attempt := alike_attempt

theorem exhaust_alike : (exhaust : Run α).Alike n m exhaust :=
  fun _ _ => ⟨_, _, endsAlike_of_apply rfl rfl⟩

/-- An event that leaves the frames as they are. -/
theorem happen_alike {e : Event} (he : ∀ w : World, (w.after e).stack = w.stack) :
    (happen e).Alike n m (happen e) := by
  intro s _
  refine ⟨.value (), s.after e, rfl, fun h => h.after e, fun _ => he s.world, fun _ => ?_⟩
  rw [happen_apply, State.withLimit_after]

end Run

/-! ### Frames -/

variable {n m : Nat}

/-- A frame that both limits allow, and that is left as soon as the code in it has ended. -/
theorem enterFrame_endsAlike {run run' : Code → List Value → Run Value} {f : Frame}
    {a : Activity} {args : List Value} {s t : State} {out : Outcome Value}
    (hroom : ¬ s.world.stack.limit ≤ s.world.stack.depth) (hroom' : ¬ m ≤ s.world.stack.depth)
    (h : Run.EndsAlike m (run a.code args) (run' a.code args) (s.after (.entered f a)) out t) :
    ∃ u, Run.EndsAlike m (enterFrame run f a args) (enterFrame run' f a args) s out u := by
  have hleft (hend : out ≠ .exhausted) (e : Option DispatchError) :
      (t.after (.left e)).world.stack = s.world.stack := by
    show t.world.stack.pop = s.world.stack
    rw [h.stack_eq hend]
    rfl
  have hbefore {e : Option DispatchError} (hnot : ¬ (t.after (.left e)).Refused) :
      ¬ t.Refused := fun hrefused => hnot (hrefused.after _)
  -- the two sides are computed; they differ in the limit, which leaving does not read
  have hlower := enterFrame_apply run f a args s
  rw [if_neg hroom, h.apply_eq] at hlower
  have hhigher := enterFrame_apply run' f a args (s.withLimit m)
  have hroom' : ¬ (s.withLimit m).world.stack.limit ≤ (s.withLimit m).world.stack.depth := hroom'
  rw [if_neg hroom', ← State.withLimit_after] at hhigher
  cases out with
  | value v =>
    have hstack := hleft Outcome.value_ne_exhausted none
    refine ⟨t.after (.left none), hlower, fun hr => (h.refused (hr.after _)).after _,
      fun _ => hstack, fun hnot => ?_⟩
    rw [hhigher, h.same (hbefore hnot), State.withLimit_after]
  | failure e =>
    have hstack := hleft Outcome.failure_ne_exhausted (some e)
    refine ⟨t.after (.left (some e)), hlower, fun hr => (h.refused (hr.after _)).after _,
      fun _ => hstack, fun hnot => ?_⟩
    rw [hhigher, h.same (hbefore hnot), State.withLimit_after]
  | exhausted =>
    refine ⟨t, hlower, fun hr => h.refused (hr.after _), fun hend => absurd rfl hend,
      fun hnot => ?_⟩
    rw [hhigher, h.same hnot]

/-- **A frame that is entered under the lower limit is entered under the higher one.** -/
theorem enterFrame_alike {run run' : Code → List Value → Run Value}
    (hrun : ∀ k, n = k + 1 → ∀ c args, (run c args).Alike k m (run' c args)) (f : Frame)
    (a : Activity) (args : List Value) :
    (enterFrame run f a args).Alike n m (enterFrame run' f a args) := by
  intro s hs
  have hfull := hs.full
  have hbelow := hs.below
  by_cases hlimit : s.world.stack.limit ≤ s.world.stack.depth
  · have hrefused : (s.after (.refused f a)).Refused := ⟨_, List.mem_cons_self, rfl⟩
    refine ⟨.failure (.usage .tooDeep), s.after (.refused f a), ?_, fun _ => hrefused,
      fun _ => rfl, fun hnot => absurd hrefused hnot⟩
    rw [enterFrame_apply, if_pos hlimit]
  · obtain ⟨k, rfl⟩ : ∃ k, n = k + 1 := Nat.exists_eq_succ_of_ne_zero (by omega)
    have hentered : (s.after (.entered f a)).Room k m := by
      refine ⟨?_, hbelow⟩
      show s.world.stack.limit ≤ s.world.stack.depth + 1 + k
      omega
    obtain ⟨out, t, h⟩ := hrun k rfl a.code args _ hentered
    exact ⟨out, enterFrame_endsAlike hlimit (by omega) h⟩

/-! ### Operations and code -/

theorem World.stack_after_of_isLocal (w : World) {e : Event} (he : e.IsLocal) :
    (w.after e).stack = w.stack := by
  cases e <;> first | rfl | exact he.elim

theorem defineClass_alike (d : ClassDecl Expr) : (defineClass d).Alike n m (defineClass d) := by
  have h := Run.alike_congruence (n := n) (m := m)
  unfold defineClass
  refine h.bind (h.look fun _ _ => rfl) fun c => ?_
  exact h.bind (Run.happen_alike fun _ => rfl) fun _ => h.pure _

theorem frames_alike {run run' : Code → List Value → Run Value}
    (hrun : ∀ k, n = k + 1 → ∀ c args, (run c args).Alike k m (run' c args)) :
    FrameCongruence (enterFrame run) (enterFrame run') (Run.Alike n m) where
  toCongruence := Run.alike_congruence
  happen _ he := Run.happen_alike fun w => w.stack_after_of_isLocal he
  defineClass := defineClass_alike
  enterFrame := enterFrame_alike hrun

theorem createObject_alike {enter enter' : Enter}
    (h : FrameCongruence enter enter' (Run.Alike n m)) (cls : ClassId) (name : String)
    (args : List Value) :
    (createObject enter cls name args).Alike n m (createObject enter' cls name args) := by
  unfold createObject
  refine h.bind (h.look fun _ _ => rfl) fun c => h.world (fun _ _ => rfl) fun w => ?_
  split
  · exact h.fail _
  · split
    · exact h.fail _
    · refine h.bind (Run.happen_alike fun _ => rfl) fun _ => ?_
      refine h.bind (h.assignments.initializeVariables _ _) fun _ => ?_
      refine h.bind (Run.happen_alike fun _ => rfl) fun _ => ?_
      refine h.bind (h.attempt ?_) fun result => ?_
      · exact h.callCongruence.constructClass Run.exhaust_alike _ _ _ _
      · refine h.bind (Run.happen_alike fun _ => rfl) fun _ => ?_
        split
        · exact h.pure _
        · exact h.bind (h.callCongruence.removeObject _) fun _ => h.fail _

theorem operations_alike {run run' : Code → List Value → Run Value}
    (hrun : ∀ k, n = k + 1 → ∀ c args, (run c args).Alike k m (run' c args)) :
    OperationCongruence (enterFrame run) (enterFrame run') (Run.Alike n m) :=
  have h := frames_alike hrun
  h.toOperationCongruence (h.callCongruence.runConstructor Run.exhaust_alike)
    (createObject_alike h)

theorem evaluateLoading_alike {enter enter' : Enter}
    (h : OperationCongruence enter enter' (Run.Alike n m)) (loads : Nat) (e : Expr)
    (args : List Value) :
    (evaluateLoading enter loads e args).Alike n m (evaluateLoading enter' loads e args) :=
  h.evaluateLoading (h.resolveClass h.logged fun _ _ => Run.exhaust_alike) loads e args

/-- **Code does the same under a higher limit**, where at least as many frames are granted:
an induction on how many those are. -/
theorem runCode_alike (loads : Nat) {n n' : Nat} (hn : n ≤ n') :
    OperationCongruence (enterFrame (runCode loads n)) (enterFrame (runCode loads n'))
      (Run.Alike n m) := by
  induction n generalizing n' with
  | zero => exact operations_alike nofun
  | succ n ih =>
    obtain ⟨k, rfl⟩ : ∃ k, n' = k + 1 := Nat.exists_eq_succ_of_ne_zero (by omega)
    have h := ih (Nat.le_of_succ_le_succ hn)
    refine operations_alike fun j hj c args => ?_
    obtain rfl : n = j := Nat.succ.inj hj
    cases c with
    | script e => exact evaluateLoading_alike h loads e args
    | builtin b => exact h.runBuiltin (evaluateLoading_alike h loads) args b

/-! ### Sessions -/

namespace Session

variable {w : World} {loads : Nat}

/-- No step refuses a frame. -/
def NeverRefuses (loads : Nat) : World → List Expr → Prop
  | _, [] => True
  | w, e :: es => ¬ (step loads w e).2.Refused ∧ NeverRefuses loads (step loads w e).2.world es

/-- The world after the last step. -/
def final (loads : Nat) : World → List Expr → World
  | w, [] => w
  | w, e :: es => final loads (step loads w e).2.world es

instance (loads : Nat) : (w : World) → (es : List Expr) → Decidable (NeverRefuses loads w es)
  | _, [] => isTrue trivial
  | w, e :: es =>
      have := instDecidableNeverRefuses loads (step loads w e).2.world es
      inferInstanceAs (Decidable (¬ _ ∧ _))

/-- A step that refuses no frame goes the same way under a higher limit. -/
theorem step_withLimit (hlimit : w.stack.limit ≤ m) {e : Expr}
    (h : ¬ (step loads w e).2.Refused) :
    step loads (w.withLimit m) e = ((step loads w e).1, (step loads w e).2.withLimit m) := by
  have hroom : State.Room w.stack.limit m { world := w } := ⟨Nat.le_add_left _ _, hlimit⟩
  obtain ⟨out, t, hends⟩ :=
    evaluateLoading_alike (runCode_alike loads hlimit) loads e [] _ hroom
  have hstep : step loads w e = (out, t) := hends.apply_eq
  rw [hstep] at h ⊢
  exact hends.same h

theorem limit_replay (w : World) (es : List Event) :
    (w.replay es).stack.limit = w.stack.limit := by
  induction es generalizing w with
  | nil => rfl
  | cons e es ih => rw [World.replay_cons, ih, limit_after]

theorem limit_step (loads : Nat) (w : World) (e : Expr) :
    (step loads w e).2.world.stack.limit = w.stack.limit := by
  rw [step_world, limit_replay]

theorem steps_withLimit {es : List Expr} (hlimit : w.stack.limit ≤ m)
    (h : NeverRefuses loads w es) :
    steps loads (w.withLimit m) es = steps loads w es ∧
      final loads (w.withLimit m) es = (final loads w es).withLimit m := by
  induction es generalizing w with
  | nil => exact ⟨rfl, rfl⟩
  | cons e es ih =>
    have hstep := step_withLimit hlimit h.1
    have hnext : (step loads w e).2.world.stack.limit ≤ m := by
      rw [limit_step]
      exact hlimit
    obtain ⟨hsteps, hfinal⟩ := ih hnext h.2
    constructor
    · unfold steps
      rw [hstep]
      exact congrArg _ hsteps
    · unfold final
      rw [hstep]
      exact hfinal

end Session

/-- **A higher limit goes unnoticed** by a session in which no frame is refused: every step
ends as before and writes the same log, and at the end there are the same classes and the
same objects with the same values. -/
theorem runs_of_higher_limit {o : EngineOptions} {m : Nat} (hm : o.maxCallDepth ≤ m)
    (loads : Nat) {es : List Expr} (h : Session.NeverRefuses loads (World.initial o) es) :
    Session.run loads { o with maxCallDepth := m } es = Session.run loads o es ∧
    (Session.final loads (World.initial { o with maxCallDepth := m }) es).registry =
      (Session.final loads (World.initial o) es).registry ∧
    (Session.final loads (World.initial { o with maxCallDepth := m }) es).objects =
      (Session.final loads (World.initial o) es).objects := by
  have hlimit : (World.initial o).stack.limit ≤ m := hm
  obtain ⟨hsteps, hfinal⟩ := Session.steps_withLimit hlimit h
  have hinitial : World.initial { o with maxCallDepth := m } = (World.initial o).withLimit m := rfl
  rw [hinitial, hfinal]
  exact ⟨hsteps, rfl, rfl⟩

/-- A constructor configures its object, the hook logs the new value, and two errors are
caught: three frames are nested. -/
def ladder : List Expr :=
  let text (t : String) : Expr := .const (.str t)
  [.defineClass
      { name := "Ladder"
        members := [.option "height" (some (.int 1)) (.sequence
            [.log (.getVar (text "height")), .raise .script (text "too high")]),
          .ctor none (.guarded
            (.invoke none (text "configure") [text "-height", .const (.int 5)]))] },
    .create (some (text "Ladder")) (text "l") [],
    .guarded (.invoke (some (text "l")) (text "climb") []),
    .invoke (some (text "l")) (text "cget") [text "-height"]]

/-- Three frames are enough, and with a hundred nothing else happens. -/
theorem runs_of_ladder :
    Session.NeverRefuses 0 (World.initial { maxCallDepth := 3 }) ladder ∧
    Session.run 0 {} ladder = Session.run 0 { maxCallDepth := 3 } ladder ∧
    (Session.final 0 (World.initial {}) ladder).registry =
      (Session.final 0 (World.initial { maxCallDepth := 3 }) ladder).registry ∧
    (Session.final 0 (World.initial {}) ladder).objects =
      (Session.final 0 (World.initial { maxCallDepth := 3 }) ladder).objects := by
  have hrefuses : Session.NeverRefuses 0 (World.initial { maxCallDepth := 3 }) ladder := by
    decide +kernel
  have hlimit : 3 ≤ 100 := by decide
  exact ⟨hrefuses, runs_of_higher_limit hlimit 0 hrefuses⟩

/-- With two frames the hook is not run. -/
example : ¬ Session.NeverRefuses 0 (World.initial { maxCallDepth := 2 }) ladder := by
  decide +kernel

end ObjectDispatch
