import ObjectDispatch.Proofs.Journal
import ObjectDispatch.Session

/-!
# Reachable worlds

A world is reachable when some session comes to it: between two steps, or at any
moment of a step, however deep in the frames of running code.  A step that does
not end has moments, but no step comes after it.

## Main definitions

* `Session.Between` — the worlds between the steps of a session.
* `Session.Reachable` — the worlds at any moment of a session.

## Main results

* `Session.Reachable.induct` — **what holds before the first step and is kept by
  every admitted event holds in every reachable world.**
-/

namespace ObjectDispatch

/-- Whether a run has ended can be told. -/
instance {α : Type} (o : Outcome α) : Decidable (o = .exhausted) :=
  match o with
  | .exhausted => isTrue rfl
  | .value _ => isFalse nofun
  | .failure _ => isFalse nofun

/-- So can whether it has ended with a certain value. -/
instance {α : Type} [DecidableEq α] (o : Outcome α) (a : α) : Decidable (o = .value a) :=
  match o with
  | .value b => decidable_of_iff (b = a) (by simp)
  | .failure _ => isFalse nofun
  | .exhausted => isFalse nofun

/-- A run has ended with an error. -/
def Outcome.isFailure {α : Type} : Outcome α → Bool
  | .failure _ => true
  | _ => false

theorem Outcome.exists_of_isFailure {α : Type} {out : Outcome α} (h : out.isFailure = true) :
    ∃ e, out = .failure e := by
  cases out with
  | failure e => exact ⟨e, rfl⟩
  | _ => cases h

namespace Session

/-- The worlds that a session with the options `o` comes to between its steps,
with at most `loads` nested calls of the class loader at a time. -/
inductive Between (loads : Nat) (o : EngineOptions) : World → Prop where
  /-- Before the first step. -/
  | start : Between loads o (World.initial o)
  /-- After a step that has ended. -/
  | next {w : World} (e : Expr) (hw : Between loads o w) (hend : (step loads w e).1 ≠ .exhausted) :
      Between loads o (step loads w e).2.world

/-- The worlds that sessions with the options `o` come to, during their steps and
between them. -/
def Reachable (o : EngineOptions) (w : World) : Prop :=
  ∃ loads v e k, Between loads o v ∧ w = v.replay ((step loads v e).2.journal.reverse.take k)

variable {o : EngineOptions} {w : World}

theorem Between.reachable {loads : Nat} (h : Between loads o w) : Reachable o w :=
  ⟨loads, w, default, 0, h, rfl⟩

/-- **What holds before the first step and is kept by every admitted event holds
in every reachable world.** -/
theorem Reachable.induct {I : World → Prop} (hstart : I (World.initial o))
    (hstep : ∀ w e, I w → w.Admits e → I (w.after e)) (hw : Reachable o w) : I w := by
  have hfollows (loads : Nat) (v : World) (e : Expr) :=
    (evaluate_follows loads v.stack.limit e []).journal v
  have hbetween {loads : Nat} {v : World} (hv : Between loads o v) : I v := by
    induction hv with
    | start => exact hstart
    | @next v e _ _ ih =>
      obtain ⟨hes, hend⟩ := hfollows loads v e
      unfold step
      rw [hend]
      exact World.replay_induct hstep ih hes
  -- at a moment of a step only some of its events have happened
  obtain ⟨loads, v, e, k, hv, rfl⟩ := hw
  exact World.replay_induct hstep (hbetween hv) ((hfollows loads v e).1.take k)

/-! ### Settings -/

/-- No event changes the options. -/
@[simp] theorem options_after (w : World) (e : Event) : (w.after e).options = w.options := by
  cases e <;> rfl

theorem Reachable.options_eq (hw : Reachable o w) : w.options = o :=
  hw.induct (I := fun w => w.options = o) rfl fun w e hw _ => (options_after w e).trans hw

/-- No event changes the limit on frames. -/
@[simp] theorem limit_after (w : World) (e : Event) :
    (w.after e).stack.limit = w.stack.limit := by
  cases e <;> rfl

theorem Reachable.limit_eq (hw : Reachable o w) : w.stack.limit = o.maxCallDepth :=
  hw.induct (I := fun w => w.stack.limit = o.maxCallDepth) rfl
    fun w e hw _ => (limit_after w e).trans hw

/-- An admitted event leaves the frames within their limit. -/
theorem depth_le_after {w : World} {e : Event} (hw : w.stack.depth ≤ w.stack.limit)
    (he : w.Admits e) : (w.after e).stack.depth ≤ (w.after e).stack.limit := by
  rw [limit_after]
  cases e with
  | entered f a => exact he
  | left failure => exact Nat.le_trans (Nat.sub_le _ _) hw
  | _ => exact hw

theorem Reachable.depth_le (hw : Reachable o w) : w.stack.depth ≤ w.stack.limit :=
  hw.induct (Nat.zero_le _) fun _ _ => depth_le_after

end Session

end ObjectDispatch
