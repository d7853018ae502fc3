import ObjectDispatch.Proofs.Evaluation

/-!
# What can happen in an evaluation

The world changes only by events, and not every event can happen in every world:
a frame is entered only where the stack has room for it, a class is registered
only as the definition of a class makes it in the registry of that moment, and an
object comes to life only under a free name and in a registered class.  An event
that can happen in a world is admitted there.

Whatever is evaluated, each event of its journal is admitted in the world that
the events before it have made.  So a property of worlds that every admitted
event keeps holds at every moment of every evaluation.

## Main definitions

* `World.Admits`, `World.AdmitsAll` — the events that can happen in a world, and
  the sequences of events.
* `Run.FollowsFrom`, `Run.Follows` — a run that lets only admitted events happen.

## Main results

* `evaluate_follows` — **every evaluation lets only admitted events happen.**
* `World.replay_induct` — what admitted events keep holds after all of them.
-/

namespace ObjectDispatch

/-- The event can happen in the world. -/
def World.Admits (w : World) : Event → Prop
  | .entered _ _ => w.stack.depth < w.stack.limit
  | .classRegistered c => ∃ d : ClassDecl Expr, d.build w.registry w.options = .ok c
  | .objectCreated name cls => w.objects.find? name = none ∧ (w.registry.get? cls).isSome
  | _ => True

/-- Local events can happen everywhere. -/
theorem World.admits_of_isLocal (w : World) {e : Event} (he : e.IsLocal) : w.Admits e := by
  cases e <;> first | exact trivial | exact he.elim

/-- The events can happen in the world, one after the other. -/
def World.AdmitsAll : World → List Event → Prop
  | _, [] => True
  | w, e :: es => w.Admits e ∧ (w.after e).AdmitsAll es

namespace World

@[simp] theorem admitsAll_nil (w : World) : w.AdmitsAll [] := trivial

@[simp] theorem admitsAll_cons (w : World) (e : Event) (es : List Event) :
    w.AdmitsAll (e :: es) ↔ w.Admits e ∧ (w.after e).AdmitsAll es := Iff.rfl

@[simp] theorem replay_nil (w : World) : w.replay [] = w := rfl

@[simp] theorem replay_cons (w : World) (e : Event) (es : List Event) :
    w.replay (e :: es) = (w.after e).replay es := rfl

theorem admitsAll_append {w : World} {es fs : List Event} :
    w.AdmitsAll (es ++ fs) ↔ w.AdmitsAll es ∧ (w.replay es).AdmitsAll fs := by
  induction es generalizing w with
  | nil => simp
  | cons e es ih => simp [ih, and_assoc]

/-- Up to any moment, too, only admitted events have happened. -/
theorem AdmitsAll.take {w : World} {es : List Event} (h : w.AdmitsAll es) (k : Nat) :
    w.AdmitsAll (es.take k) := by
  rw [← List.take_append_drop k es, admitsAll_append] at h
  exact h.1

/-- **What admitted events keep holds after all of them.** -/
theorem replay_induct {I : World → Prop} (hstep : ∀ w e, I w → w.Admits e → I (w.after e))
    {w : World} {es : List Event} (hw : I w) (hes : w.AdmitsAll es) : I (w.replay es) := by
  induction es generalizing w with
  | nil => exact hw
  | cons e es ih => exact ih (hstep w e hw hes.1) hes.2

end World

namespace State

/-- The journal after a sequence of events has them in front. -/
theorem journal_foldl_after (s : State) (es : List Event) :
    (es.foldl State.after s).journal = es.reverse ++ s.journal := by
  induction es generalizing s with
  | nil => rfl
  | cons e es ih => simp [ih, State.after]

/-- A journal that began empty is the events. -/
theorem reverse_journal_foldl_after (w : World) (es : List Event) :
    (es.foldl State.after { world := w }).journal.reverse = es := by
  rw [journal_foldl_after, List.append_nil, List.reverse_reverse]

/-- The world after a sequence of events is their replay. -/
theorem world_foldl_after (s : State) (es : List Event) :
    (es.foldl State.after s).world = s.world.replay es := by
  induction es generalizing s with
  | nil => rfl
  | cons e es ih => simp [ih, State.after]

end State

/-! ### Runs that let only admitted events happen -/

namespace Run

variable {α β : Type}

/-- From the state `s` on, the run lets only admitted events happen, and they are
what changes the state. -/
def FollowsFrom (r : Run α) (s : State) : Prop :=
  ∃ es, s.world.AdmitsAll es ∧ (r s).2 = es.foldl State.after s

/-- From every state on, the run lets only admitted events happen. -/
def Follows (r : Run α) : Prop := ∀ s, r.FollowsFrom s

/-- A run that leaves the state as it is lets nothing happen. -/
theorem followsFrom_of_state {r : Run α} {s : State} (h : (r s).2 = s) : r.FollowsFrom s :=
  ⟨[], trivial, h⟩

theorem followsFrom_bind {r : Run α} {f : α → Run β} {s : State} (hr : r.FollowsFrom s)
    (hf : ∀ a t, r s = (.value a, t) → (f a).FollowsFrom t) : (r >>= f).FollowsFrom s := by
  obtain ⟨es, hes, hend⟩ := hr
  cases hrun : r s with
  | mk o t =>
    rw [hrun] at hend
    cases o with
    | value a =>
      -- what follows begins in the world that the first events have made
      obtain ⟨fs, hfs, hend'⟩ := hf a t hrun
      simp only at hend
      refine ⟨es ++ fs, ?_, ?_⟩
      · rw [hend, State.world_foldl_after] at hfs
        exact World.admitsAll_append.mpr ⟨hes, hfs⟩
      · rw [bind_apply, hrun, List.foldl_append, ← hend]
        exact hend'
    | failure e => exact ⟨es, hes, by rw [bind_apply, hrun]; exact hend⟩
    | exhausted => exact ⟨es, hes, by rw [bind_apply, hrun]; exact hend⟩

theorem followsFrom_look (g : World → Except DispatchError α) (s : State) :
    (look g).FollowsFrom s :=
  followsFrom_of_state (by rw [look_apply])

/-- What a run does after it has read the world, it does in that world. -/
theorem followsFrom_look_bind {g : World → Except DispatchError α} {f : α → Run β} {s : State}
    (hf : ∀ a, g s.world = .ok a → (f a).FollowsFrom s) : (look g >>= f).FollowsFrom s := by
  cases hg : g s.world with
  | ok a =>
    unfold FollowsFrom
    rw [look_bind_of_ok hg]
    exact hf a hg
  | error e => exact followsFrom_of_state (by rw [look_bind_of_error hg])

theorem followsFrom_world_bind {f : World → Run β} {s : State}
    (hf : (f s.world).FollowsFrom s) : (world >>= f).FollowsFrom s := hf

theorem followsFrom_happen {e : Event} {s : State} (he : s.world.Admits e) :
    (happen e).FollowsFrom s :=
  ⟨[e], ⟨he, trivial⟩, rfl⟩

theorem followsFrom_happen_bind {e : Event} {f : Unit → Run β} {s : State}
    (he : s.world.Admits e) (hf : (f ()).FollowsFrom (s.after e)) :
    (happen e >>= f).FollowsFrom s := by
  refine followsFrom_bind (followsFrom_happen he) fun a t h => ?_
  simp only [happen_apply, Prod.mk.injEq] at h
  rw [← h.2]
  exact hf

theorem followsFrom_attempt {r : Run α} {s : State} (hr : r.FollowsFrom s) :
    (attempt r).FollowsFrom s := by
  obtain ⟨es, hes, hend⟩ := hr
  refine ⟨es, hes, ?_⟩
  rw [attempt_apply]
  cases hrun : r s with
  | mk o t =>
    rw [hrun] at hend
    cases o <;> exact hend

theorem follows_law : Run.Law Follows where
  pure _ _ := followsFrom_of_state rfl
  fail _ _ := followsFrom_of_state rfl
  exhaust _ := followsFrom_of_state rfl
  world _ := followsFrom_of_state rfl
  look g s := followsFrom_look g s
  bind hr hf s := followsFrom_bind (hr s) fun a t _ => hf a t
  attempt hr s := followsFrom_attempt (hr s)

/-- The journal of a run from a world is what happened to the world. -/
theorem Follows.journal {r : Run α} (h : r.Follows) (w : World) :
    w.AdmitsAll (r { world := w }).2.journal.reverse ∧
      (r { world := w }).2.world = w.replay (r { world := w }).2.journal.reverse := by
  obtain ⟨es, hes, hend⟩ := h { world := w }
  rw [hend, State.reverse_journal_foldl_after, State.world_foldl_after]
  exact ⟨hes, rfl⟩

end Run

/-! ### Evaluation -/

/-- Nothing is pushed where there is no room. -/
theorem CallStack.depth_lt_of_push {s t : CallStack} {f : Frame} (h : s.push f = .ok t) :
    s.depth < s.limit := by
  unfold push at h
  split at h
  · simp at h
  · omega

theorem enterFrame_follows {run : Code → List Value → Run Value}
    (hrun : ∀ c args, (run c args).Follows) (f : Frame) (a : Activity) (args : List Value) :
    (enterFrame run f a args).Follows := by
  intro s
  unfold enterFrame
  refine Run.followsFrom_world_bind ?_
  split
  · refine Run.followsFrom_happen_bind trivial ?_
    exact Run.follows_law.fail _ _
  · next t hpush =>
    refine Run.followsFrom_happen_bind (CallStack.depth_lt_of_push hpush) ?_
    refine Run.follows_law.bind (Run.follows_law.attempt (hrun _ _)) (fun result => ?_) _
    intro t
    refine Run.followsFrom_happen_bind trivial ?_
    exact Run.follows_law.answer _ _

theorem defineClass_follows (d : ClassDecl Expr) : (defineClass d).Follows := by
  intro s
  unfold defineClass
  refine Run.followsFrom_look_bind fun c hc => ?_
  exact Run.followsFrom_happen_bind ⟨d, hc⟩ (Run.follows_law.pure _ _)

theorem follows_localLaw : LocalLaw Run.Follows where
  toLaw := Run.follows_law
  happen _ he s := Run.followsFrom_happen (s.world.admits_of_isLocal he)
  defineClass := defineClass_follows
  enterFrame := enterFrame_follows

theorem createObject_follows {run : Code → List Value → Run Value}
    (hrun : ∀ c args, (run c args).Follows) (cls : ClassId) (name : String)
    (args : List Value) : (createObject (enterFrame run) cls name args).Follows := by
  have h := follows_localLaw
  intro s
  unfold createObject
  refine Run.followsFrom_look_bind fun c hc => Run.followsFrom_world_bind ?_
  split
  · exact h.fail _ _
  · next hfree =>
    split
    · exact h.fail _ _
    · -- the class was found and the name was free in this very world
      have hcls : (s.world.registry.get? cls).isSome := by
        unfold World.classAt at hc
        split at hc
        · next hget => rw [hget]; rfl
        · simp at hc
      refine Run.followsFrom_happen_bind ⟨by simpa [World.findObject?] using hfree, hcls⟩ ?_
      refine h.bind ((h.frameLaw hrun).assignments.initializeVariables _ _) (fun _ t => ?_) _
      refine Run.followsFrom_happen_bind trivial ?_
      refine h.bind (h.attempt (h.constructClass hrun _ _ _ _)) (fun result t => ?_) _
      refine Run.followsFrom_happen_bind trivial ?_
      split
      · exact h.pure _ _
      · exact h.bind ((h.frameLaw hrun).callLaw.removeObject _) (fun _ => h.fail _) _

/-- **Every evaluation lets only admitted events happen.** -/
theorem evaluate_follows (loads frames : Nat) (e : Expr) (args : List Value) :
    (evaluate loads frames e args).Follows :=
  (follows_localLaw.toEvaluationLaw createObject_follows).evaluate loads frames e args

end ObjectDispatch
