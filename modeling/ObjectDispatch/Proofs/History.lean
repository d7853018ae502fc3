import ObjectDispatch.Proofs.Conformance
import ObjectDispatch.Proofs.Frames

/-!
# The history of a session

What has happened in the steps of a session, one after the other, is its history.
Steps are courses of running code, outside any frame, and so is the whole history:
a property that courses have need not be shown again for sessions.

A part of a history that leaves out nothing in between is a stretch of the session.
A stretch without events is a moment, and the world at that moment is reachable; so
what can happen next, or later, is asked of stretches.

## Main definitions

* `Session.history` — the events of a session.
* `Session.Stretch` — the events between two moments of a session.

## Main results

* `Session.history_course` — **the history of a session is a course.**
* `Session.Between.frames_eq` — between steps nothing is going on.
* `Session.reachable_iff_stretch` — the moments of sessions have the reachable worlds.
-/

namespace ObjectDispatch

theorem Run.Performs.journal {α : Type} {r : Run α} {t : Task} {w : World}
    (h : r.Performs t { world := w }) :
    Course t w (r { world := w }).2.journal.reverse (r { world := w }).1.ending ∧
      (r { world := w }).2.world = w.replay (r { world := w }).2.journal.reverse := by
  obtain ⟨es, hend, hcourse⟩ := h
  rw [hend, State.reverse_journal_foldl_after, State.world_foldl_after]
  exact ⟨hcourse, rfl⟩

namespace Session

/-- What happens in a session that begins in the world `w`.  No step comes after one
that does not end. -/
def history (loads : Nat) : World → List Expr → List Event
  | _, [] => []
  | w, e :: es =>
      (step loads w e).2.journal.reverse ++
        if (step loads w e).1 = .exhausted then []
        else history loads (step loads w e).2.world es

theorem step_course {w : World} (hw : w.Sound) (loads : Nat) (e : Expr) :
    Course .code w (step loads w e).2.journal.reverse (step loads w e).1.ending ∧
      (step loads w e).2.world = w.replay (step loads w e).2.journal.reverse :=
  Run.Performs.journal (evaluate_conforms loads w.stack.limit e [] { world := w } hw)

/-- **The history of a session is a course.** -/
theorem history_course {w : World} (hw : w.Sound) (loads : Nat) (es : List Expr) :
    ∃ x, Course .code w (history loads w es) x := by
  induction es generalizing w with
  | nil => exact ⟨.value (), .idle w⟩
  | cons e es ih =>
    obtain ⟨hcourse, hworld⟩ := step_course hw loads e
    unfold history
    split
    · rw [List.append_nil]
      exact ⟨_, hcourse⟩
    · next hend =>
      have hended : (step loads w e).1.ending ≠ .exhausted := by
        intro h
        cases hout : (step loads w e).1 with
        | exhausted => exact hend hout
        | _ =>
          rw [hout] at h
          cases h
      have hsound : (step loads w e).2.world.Sound := by
        rw [hworld]
        exact hcourse.sound hw
      obtain ⟨x, hrest⟩ := ih hsound
      rw [hworld] at hrest ⊢
      exact ⟨x, .andThen (.ends hcourse hended nofun) hrest⟩

/-- Between steps nothing is going on. -/
theorem Between.frames_eq {loads : Nat} {o : EngineOptions} {w : World}
    (hw : Between loads o w) : w.stack.frames = [] ∧ w.building = [] := by
  induction hw with
  | start => exact ⟨rfl, rfl⟩
  | @next w e _ hend ih =>
    obtain ⟨hstack, hbuilding⟩ :=
      evaluate_keepsFrames loads w.stack.limit e [] { world := w } hend
    refine ⟨?_, hbuilding.trans ih.2⟩
    show (evaluate loads w.stack.limit e [] { world := w }).2.world.stack.frames = []
    rw [hstack]
    exact ih.1

/-! ### Stretches -/

/-- A step makes of the world what its events make of it. -/
theorem step_world (loads : Nat) (w : World) (e : Expr) :
    (step loads w e).2.world = w.replay (step loads w e).2.journal.reverse :=
  ((evaluate_follows loads w.stack.limit e []).journal w).2

/-- In some session with the options `o`, the events `es` happen one after the other,
and the first of them in the world `w`. -/
def Stretch (o : EngineOptions) (w : World) (es : List Event) : Prop :=
  ∃ loads steps before after,
    history loads (World.initial o) steps = before ++ es ++ after ∧
      w = (World.initial o).replay before

variable {o : EngineOptions} {w : World} {es fs : List Event}

/-- A stretch can be cut at any moment. -/
theorem Stretch.split (h : Stretch o w (es ++ fs)) :
    Stretch o w es ∧ Stretch o (w.replay es) fs := by
  obtain ⟨loads, steps, before, after, hes, rfl⟩ := h
  refine ⟨⟨loads, steps, before, fs ++ after, by simpa using hes, rfl⟩, ?_⟩
  exact ⟨loads, steps, before ++ es, after, by simpa using hes, (World.replay_append _ _ _).symm⟩

/-- So many events of a history, after so many others, are a stretch. -/
theorem stretch_of_history (o : EngineOptions) (loads : Nat) (steps : List Expr) (i j : Nat) :
    Stretch o ((World.initial o).replay ((history loads (World.initial o) steps).take i))
      (((history loads (World.initial o) steps).drop i).take j) :=
  ⟨loads, steps, _, ((history loads (World.initial o) steps).drop i).drop j,
    by rw [List.append_assoc, List.take_append_drop, List.take_append_drop], rfl⟩

/-- What holds of every event of every session holds of the events of a stretch. -/
theorem Stretch.each {A : World → Event → Prop} (h : Stretch o w es)
    (hall : ∀ loads steps, (World.initial o).Each A (history loads (World.initial o) steps)) :
    w.Each A es := by
  obtain ⟨loads, steps, before, after, hes, rfl⟩ := h
  have heach := hall loads steps
  rw [hes, World.each_append, World.each_append] at heach
  exact heach.1.2

theorem Stretch.admitsAll (h : Stretch o w es) : w.AdmitsAll es := by
  obtain ⟨loads, steps, before, after, hes, rfl⟩ := h
  obtain ⟨x, hcourse⟩ := history_course (World.sound_initial o) loads steps
  have hall := hcourse.admitsAll
  rw [hes, World.admitsAll_append, World.admitsAll_append] at hall
  exact hall.1.2

/-- What has happened by some moment is what the steps before it have made, and the
beginning of one more. -/
theorem reachable_of_history {loads : Nat} {v : World} (hv : Between loads o v)
    {steps : List Expr} (h : es <+: history loads v steps) : Reachable o (v.replay es) := by
  induction steps generalizing v es with
  | nil =>
    obtain rfl := List.prefix_nil.mp h
    exact hv.reachable
  | cons e steps ih =>
    obtain ⟨later, hlater⟩ := h
    unfold history at hlater
    rcases List.append_eq_append_iff.mp hlater with ⟨rest, hjournal, -⟩ | ⟨rest, rfl, hrest⟩
    · exact ⟨loads, v, e, es.length, hv, by rw [hjournal, List.take_left]⟩
    · rw [World.replay_append, ← step_world]
      split at hrest
      · obtain ⟨rfl, -⟩ := List.append_eq_nil_iff.mp hrest.symm
        exact ⟨loads, v, e, _, hv, by rw [List.take_length, step_world]; rfl⟩
      · next hend => exact ih (.next e hv hend) ⟨later, hrest.symm⟩

/-- The steps that lead to a world are a history that goes on there. -/
theorem Between.exists_steps {loads : Nat} {v : World} (hv : Between loads o v) :
    ∃ steps, v = (World.initial o).replay (history loads (World.initial o) steps) ∧
      ∀ more, history loads (World.initial o) (steps ++ more) =
        history loads (World.initial o) steps ++ history loads v more := by
  induction hv with
  | start => exact ⟨[], rfl, fun _ => rfl⟩
  | @next v e hv hend ih =>
    obtain ⟨steps, hsteps, happend⟩ := ih
    have hcons (more : List Expr) : history loads v (e :: more) =
        (step loads v e).2.journal.reverse ++ history loads (step loads v e).2.world more := by
      rw [history, if_neg hend]
    have hlast : history loads (World.initial o) (steps ++ [e]) =
        history loads (World.initial o) steps ++ (step loads v e).2.journal.reverse := by
      rw [happend, hcons, history, List.append_nil]
    refine ⟨steps ++ [e], ?_, fun more => ?_⟩
    · rw [hlast, World.replay_append, ← hsteps, step_world]
    · rw [hlast, List.append_assoc steps, happend, List.singleton_append, hcons,
        List.append_assoc]

/-- **The moments of sessions have the reachable worlds.** -/
theorem reachable_iff_stretch : Reachable o w ↔ Stretch o w [] := by
  constructor
  · rintro ⟨loads, v, e, k, hv, rfl⟩
    obtain ⟨steps, hsteps, happend⟩ := hv.exists_steps
    refine ⟨loads, steps ++ [e], history loads (World.initial o) steps ++
      (step loads v e).2.journal.reverse.take k, (step loads v e).2.journal.reverse.drop k, ?_, ?_⟩
    · rw [List.append_nil, List.append_assoc, List.take_append_drop, happend]
      congr 1
      unfold history
      split <;> simp [history]
    · rw [World.replay_append, ← hsteps]
  · rintro ⟨loads, steps, before, after, hes, rfl⟩
    have hbefore : before <+: history loads (World.initial o) steps := by
      rw [hes, List.append_nil]
      exact List.prefix_append before after
    exact reachable_of_history .start hbefore

theorem Stretch.reachable (h : Stretch o w es) : Reachable o w := by
  rw [← List.nil_append es] at h
  exact reachable_iff_stretch.mpr h.split.1

theorem Stretch.sound (h : Stretch o w es) : w.Sound :=
  h.reachable.sound

end Session

end ObjectDispatch
