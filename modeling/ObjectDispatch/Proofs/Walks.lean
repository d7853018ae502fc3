import Mathlib.Data.List.Basic
import ObjectDispatch.Heritage

/-!
# Walks along a heritage

A walk is asked for the next class, or to go on until a class has been passed, in
any order and also when it has come to its end.  Every call passes some of the
classes ahead, from the first of them on; so what was passed and what is ahead are
always the heritage, cut in two where the calls have come to.

## Main definitions

* `Walk.Passes` — the classes that are passed on the way from one point of a walk
  to another.
* `Walk.Call`, `Walk.after` — what a walk is asked for, and where it is then.

## Main results

* `Walk.skipPast_of_mem`, `Walk.skipPast_of_not_mem` — how far a walk goes that is
  to pass a class.
* `Walk.whole_after` — calls stay on the same heritage.
* `walk_along_heritage` — **all that calls do to a walk.**
-/

namespace ObjectDispatch

namespace Walk

variable {w w' w'' : Walk} {cs ds : List ClassId} {target : ClassId}

/-! ### What is passed -/

/-- From `w` to `w'` the classes `cs` are passed, in this order. -/
structure Passes (w : Walk) (cs : List ClassId) (w' : Walk) : Prop where
  /-- They come first of those ahead. -/
  ahead_eq : w.ahead = cs ++ w'.ahead
  /-- They are added to those passed. -/
  passed_eq : w'.passed.reverse = w.passed.reverse ++ cs

namespace Passes

theorem refl (w : Walk) : w.Passes [] w := ⟨rfl, (List.append_nil _).symm⟩

theorem trans (h : w.Passes cs w') (h' : w'.Passes ds w'') : w.Passes (cs ++ ds) w'' where
  ahead_eq := by rw [h.ahead_eq, h'.ahead_eq, List.append_assoc]
  passed_eq := by rw [h'.passed_eq, h.passed_eq, List.append_assoc]

/-- Passing classes stays on the same heritage. -/
theorem whole_eq (h : w.Passes cs w') : w'.whole = w.whole := by
  unfold whole
  rw [h.passed_eq, h.ahead_eq, List.append_assoc]

end Passes

/-! ### The next class -/

theorem advance_fst (w : Walk) : w.advance.1 = w.ahead.head? := by
  obtain ⟨passed, ahead⟩ := w
  cases ahead <;> rfl

theorem passes_advance (w : Walk) : w.Passes w.ahead.head?.toList w.advance.2 := by
  obtain ⟨passed, ahead⟩ := w
  cases ahead with
  | nil => exact .refl _
  | cons c rest => exact ⟨rfl, List.reverse_cons⟩

theorem map_next? (w : Walk) : (Std.Stream.next? w).map (·.1) = w.ahead.head? := by
  obtain ⟨passed, ahead⟩ := w
  cases ahead <;> rfl

/-! ### Until a class has been passed -/

/-- A walk passes a class that it comes to for the first time, and goes on after it. -/
theorem skipAlong_append {before : List ClassId} (hbefore : target ∉ before)
    (passed after : List ClassId) : skipAlong target passed (before ++ target :: after) =
      (true, ⟨target :: (before.reverse ++ passed), after⟩) := by
  induction before generalizing passed with
  | nil => simp [skipAlong]
  | cons k before ih =>
    rw [List.mem_cons, not_or] at hbefore
    rw [List.cons_append, skipAlong, if_neg (Ne.symm hbefore.1), ih hbefore.2]
    simp

/-- A walk goes on to its end if a class does not come. -/
theorem skipAlong_of_not_mem {ahead : List ClassId} (h : target ∉ ahead) (passed : List ClassId) :
    skipAlong target passed ahead = (false, ⟨ahead.reverse ++ passed, []⟩) := by
  induction ahead generalizing passed with
  | nil => rfl
  | cons k ahead ih =>
    rw [List.mem_cons, not_or] at h
    rw [skipAlong, if_neg (Ne.symm h.1), ih h.2]
    simp

/-- A class that comes is passed where it comes first, and nothing after it. -/
theorem skipPast_of_mem (h : target ∈ w.ahead) :
    ∃ before, target ∉ before ∧ (w.skipPast target).1 = true ∧
      w.Passes (before ++ [target]) (w.skipPast target).2 := by
  obtain ⟨passed, ahead⟩ := w
  obtain ⟨before, after, rfl, hbefore⟩ := List.eq_append_cons_of_mem h
  have hskip := skipAlong_append hbefore passed after
  refine ⟨before, hbefore, ?_⟩
  rw [skipPast, hskip]
  exact ⟨rfl, by simp, by simp⟩

/-- A class that does not come lets all be passed. -/
theorem skipPast_of_not_mem (h : target ∉ w.ahead) :
    (w.skipPast target).1 = false ∧ (w.skipPast target).2.ahead = [] ∧
      w.Passes w.ahead (w.skipPast target).2 := by
  rw [skipPast, skipAlong_of_not_mem h]
  exact ⟨rfl, rfl, by simp, by simp⟩

/-- A walk tells that it has passed a class exactly if the class is ahead of it. -/
theorem skipPast_eq_true_iff : (w.skipPast target).1 = true ↔ target ∈ w.ahead := by
  by_cases h : target ∈ w.ahead
  · obtain ⟨_, -, hcame, -⟩ := skipPast_of_mem h
    exact iff_of_true hcame h
  · rw [(skipPast_of_not_mem h).1]
    exact iff_of_false Bool.false_ne_true h

/-- A heritage along which a class has been passed has the class in it, and what is ahead
comes after it. -/
theorem eq_append_of_skipPast {heritage : List ClassId}
    (h : (start heritage).skipPast target = (true, w)) :
    ∃ before, heritage = before ++ target :: w.ahead := by
  have hmem : target ∈ (start heritage).ahead := skipPast_eq_true_iff.mp (by rw [h])
  obtain ⟨before, -, -, hpasses⟩ := skipPast_of_mem hmem
  rw [h] at hpasses
  have hahead : heritage = before ++ [target] ++ w.ahead := hpasses.ahead_eq
  exact ⟨before, by rw [hahead, List.append_assoc, List.singleton_append]⟩

/-! ### Calls -/

/-- What a walk is asked for. -/
inductive Call where
  /-- The next class. -/
  | advance : Call
  /-- The next class of the stream. -/
  | next : Call
  /-- To go on until a class has been passed. -/
  | skipPast (target : ClassId) : Call
  deriving DecidableEq, Repr

/-- The walk after a call; a stream that has ended is left as it is. -/
def call (w : Walk) : Call → Walk
  | .advance => w.advance.2
  | .next => ((Std.Stream.next? w).map (·.2)).getD w
  | .skipPast target => (w.skipPast target).2

/-- The walk after calls. -/
def after (w : Walk) (calls : List Call) : Walk := calls.foldl call w

/-- The stream goes on as the walk does. -/
theorem call_next (w : Walk) : w.call .next = w.advance.2 := by
  obtain ⟨passed, ahead⟩ := w
  cases ahead <;> rfl

/-- A call passes some of the classes ahead. -/
theorem exists_passes_call (w : Walk) (c : Call) : ∃ cs, w.Passes cs (w.call c) := by
  cases c with
  | advance => exact ⟨_, w.passes_advance⟩
  | next =>
    rw [call_next]
    exact ⟨_, w.passes_advance⟩
  | skipPast target =>
    by_cases h : target ∈ w.ahead
    · obtain ⟨before, -, -, hpasses⟩ := skipPast_of_mem h
      exact ⟨_, hpasses⟩
    · exact ⟨_, (skipPast_of_not_mem h).2.2⟩

/-- So do all calls together. -/
theorem exists_passes_after (w : Walk) (calls : List Call) :
    ∃ cs, w.Passes cs (w.after calls) := by
  induction calls generalizing w with
  | nil => exact ⟨[], .refl w⟩
  | cons c calls ih =>
    obtain ⟨cs, hfirst⟩ := w.exists_passes_call c
    obtain ⟨ds, hrest⟩ := ih (w.call c)
    exact ⟨cs ++ ds, hfirst.trans hrest⟩

/-- **Calls stay on the same heritage.** -/
theorem whole_after (w : Walk) (calls : List Call) : (w.after calls).whole = w.whole := by
  obtain ⟨_, hpasses⟩ := w.exists_passes_after calls
  exact hpasses.whole_eq

/-- A walk that has come to its end stays there. -/
theorem ahead_after_eq_nil (h : w.ahead = []) (calls : List Call) :
    (w.after calls).ahead = [] := by
  obtain ⟨_, hpasses⟩ := w.exists_passes_after calls
  have hahead := hpasses.ahead_eq
  rw [h] at hahead
  exact (List.append_eq_nil_iff.mp hahead.symm).2

end Walk

/-- **All that calls do to a walk**, of any classes, also of one that has come to its
end.  What was passed, followed by what is ahead, is the heritage.  Asked for the next
class, the walk gives the first of those ahead and passes it, and so does its stream.
It tells that a class was passed exactly if the class is ahead; then it has passed
what comes up to it for the first time and not more, and otherwise all, so that no
class is ever given again. -/
theorem walk_along_heritage (heritage : List ClassId) (calls : List Walk.Call) :
    let w := (Walk.start heritage).after calls
    w.passed.reverse ++ w.ahead = heritage ∧
    (w.advance.1 = w.ahead.head? ∧ w.Passes w.ahead.head?.toList w.advance.2) ∧
    ((Std.Stream.next? w).map (·.1) = w.ahead.head? ∧
      w.Passes w.ahead.head?.toList (w.call .next)) ∧
    ∀ target,
      ((w.skipPast target).1 = true ↔ target ∈ w.ahead) ∧
      (target ∈ w.ahead → ∃ before, target ∉ before ∧
        w.Passes (before ++ [target]) (w.skipPast target).2) ∧
      (target ∉ w.ahead → w.Passes w.ahead (w.skipPast target).2 ∧
        ∀ further, ((w.skipPast target).2.after further).advance.1 = none) := by
  intro w
  have hadvance := w.passes_advance
  refine ⟨(Walk.start heritage).whole_after calls, ⟨w.advance_fst, hadvance⟩,
    ⟨w.map_next?, ?_⟩, fun target => ⟨Walk.skipPast_eq_true_iff, fun hmem => ?_, fun hnot => ?_⟩⟩
  · rw [Walk.call_next]
    exact hadvance
  · obtain ⟨before, hbefore, -, hpasses⟩ := Walk.skipPast_of_mem hmem
    exact ⟨before, hbefore, hpasses⟩
  · obtain ⟨-, hend, hpasses⟩ := Walk.skipPast_of_not_mem hnot
    refine ⟨hpasses, fun further => ?_⟩
    rw [Walk.advance_fst, Walk.ahead_after_eq_nil hend further]
    rfl

/-- A class that comes twice is passed where it comes first, and then once more; one
that was passed and does not come again brings the walk to its end. -/
theorem walk_along_spiral :
    let w := (Walk.start [⟨3⟩, ⟨2⟩, ⟨1⟩, ⟨2⟩, ⟨0⟩]).after [.next, .skipPast ⟨2⟩]
    w.ahead = [⟨1⟩, ⟨2⟩, ⟨0⟩] ∧
    (∃ before, ⟨2⟩ ∉ before ∧ w.Passes (before ++ [⟨2⟩]) (w.skipPast ⟨2⟩).2) ∧
    (w.skipPast ⟨3⟩).1 = false ∧
    ∀ further, ((w.skipPast ⟨3⟩).2.after further).advance.1 = none := by
  obtain ⟨-, -, -, hskip⟩ :=
    walk_along_heritage [⟨3⟩, ⟨2⟩, ⟨1⟩, ⟨2⟩, ⟨0⟩] [.next, .skipPast ⟨2⟩]
  exact ⟨rfl, (hskip ⟨2⟩).2.1 (by decide), rfl, ((hskip ⟨3⟩).2.2 (by decide)).2⟩

end ObjectDispatch
