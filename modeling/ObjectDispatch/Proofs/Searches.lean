import ObjectDispatch.Proofs.Linearization

/-!
# Searches along superclasses

The search for a heritage comes to an end in every registry, also in one where
classes inherit from themselves, directly or in a circle, have a superclass twice
or have one that is not registered.  A step that reaches a class puts the
superclasses of the class on the list of classes that are pending, which may make
the list longer; but they are owed no more then, and what is pending and what is
owed become less together with every step.

## Main definitions

* `Search` — the classes that are pending and those that have been reached.
* `Search.StepsTo` — one step of a search.
* `Search.size` — what becomes less with every step.

## Main results

* `Search.wellFounded_stepsTo` — **no search goes on for ever.**
* `Registry.Explores.stepsTo` — the way to all classes that are reached is made of
  steps.
* `linearize_of_registry` — **a heritage in any registry.**
-/

namespace ObjectDispatch

/-- Where a search has come to. -/
structure Search where
  /-- The classes that are still to be visited. -/
  pending : List ClassId
  /-- The classes that have been reached, in this order. -/
  visited : List ClassId
  deriving DecidableEq, Repr

namespace Search

variable {r : Registry} {s t : Search}

/-- One step of a search; there is none where nothing is pending. -/
def step? (r : Registry) : Search → Option Search
  | ⟨[], _⟩ => none
  | ⟨next :: pending, visited⟩ =>
      if next ∈ visited then some ⟨pending, visited⟩
      else some ⟨r.supersOf next ++ pending, visited ++ [next]⟩

/-- A step leads from `s` to `t`. -/
def StepsTo (r : Registry) (s t : Search) : Prop := s.step? r = some t

/-- The classes that are pending, and the superclasses that those not reached owe. -/
def size (r : Registry) (s : Search) : Nat := s.pending.length + r.owed s.visited

theorem stepsTo_of_mem {next : ClassId} {pending visited : List ClassId} (h : next ∈ visited) :
    StepsTo r ⟨next :: pending, visited⟩ ⟨pending, visited⟩ := by
  unfold StepsTo step?
  exact if_pos h

theorem stepsTo_of_not_mem {next : ClassId} {pending visited : List ClassId}
    (h : next ∉ visited) : StepsTo r ⟨next :: pending, visited⟩
      ⟨r.supersOf next ++ pending, visited ++ [next]⟩ := by
  unfold StepsTo step?
  exact if_neg h

/-- Every step makes a search smaller. -/
theorem StepsTo.size_lt (h : StepsTo r s t) : t.size r < s.size r := by
  obtain ⟨pending, visited⟩ := s
  cases pending with
  | nil => cases h
  | cons next pending =>
    by_cases hnext : next ∈ visited
    · cases (stepsTo_of_mem hnext).symm.trans h
      simp only [size, List.length_cons]
      omega
    · cases (stepsTo_of_not_mem hnext).symm.trans h
      have howed := Registry.owed_concat (r := r) hnext
      simp only [size, List.length_append, List.length_cons]
      omega

/-- **No search goes on for ever**, wherever it begins. -/
theorem wellFounded_stepsTo (r : Registry) : WellFounded fun t s => StepsTo r s t :=
  Subrelation.wf (fun h => StepsTo.size_lt h) (measure (size r)).wf

end Search

/-- The way to all classes that are reached is made of steps. -/
theorem Registry.Explores.stepsTo {r : Registry} {pending visited result : List ClassId}
    (h : r.Explores pending visited result) :
    Relation.ReflTransGen (Search.StepsTo r) ⟨pending, visited⟩ ⟨[], result⟩ := by
  induction h with
  | nil => exact .refl
  | seen hnext _ ih => exact .head (Search.stepsTo_of_mem hnext) ih
  | fresh hnext _ ih => exact .head (Search.stepsTo_of_not_mem hnext) ih

/-- **A heritage in any registry**, whatever superclasses are recorded in it.  No search
goes on for ever, and the one from the superclasses comes to an end with the heritage.
The heritage begins with the class itself, has no class twice, and holds besides the
class what can be reached from the superclasses, where the superclasses recorded for the
class itself are not followed. -/
theorem linearize_of_registry (r : Registry) (id : ClassId) (supers : List ClassId) :
    (WellFounded fun t s => Search.StepsTo r s t) ∧
    Relation.ReflTransGen (Search.StepsTo r) ⟨supers, [id]⟩ ⟨[], r.linearize id supers⟩ ∧
    (∃ found, r.linearize id supers = id :: found) ∧
    (r.linearize id supers).Nodup ∧
    ∀ x, x ∈ r.linearize id supers ↔
      x = id ∨ ∃ s ∈ supers, Relation.ReflTransGen (r.InheritsBeyond [id]) s x := by
  have hway := r.explores_linearize id supers
  obtain ⟨found, hfound⟩ := hway.visited_prefix
  refine ⟨Search.wellFounded_stepsTo r, hway.stepsTo, ⟨found, hfound.symm⟩,
    hway.nodup (List.nodup_singleton id), fun x => ?_⟩
  rw [hway.mem_iff_beyond, List.mem_singleton]

/-- A registry in which two classes inherit from each other, the first of them from itself
too, and the second twice from a class that is not registered. -/
def tangle : Registry where
  classes := [
    { (default : Class) with id := ⟨0⟩, supers := [⟨0⟩, ⟨1⟩] },
    { (default : Class) with id := ⟨1⟩, supers := [⟨0⟩, ⟨7⟩, ⟨7⟩] }]

example : tangle.linearize ⟨2⟩ [⟨1⟩] = [⟨2⟩, ⟨1⟩, ⟨0⟩, ⟨7⟩] := by decide

-- what is recorded for the class itself is not followed
example : tangle.linearize ⟨0⟩ [⟨7⟩] = [⟨0⟩, ⟨7⟩] := by decide

end ObjectDispatch
