import Mathlib.Data.List.Induction
import Mathlib.Data.List.Nodup
import Mathlib.Logic.Relation
import ObjectDispatch.Heritage

/-!
# Following a list of classes to visit

A heritage is found by following a list of classes that are still to be visited,
and an entry of that list whose class has been reached in the meantime is
skipped.  Here the way is given as a relation, whose rules are the three things
that a step can do.  With enough steps the recursion goes this way to its end, and
what is found holds the classes that can be reached, each once.

## Main definitions

* `Registry.Inherits` — a class and one of its direct superclasses.
* `Registry.InheritsBeyond` — the same for classes that had not been reached.
* `Registry.Explores` — the way from what is pending and what is visited to all
  classes that are reached.

## Main results

* `Registry.explores_linearize` — **a heritage is what is found at the end of the
  way.**
* `Registry.Explores.append` — what is pending is followed one after the other.
* `Registry.Explores.mem_iff_beyond`, `Registry.Explores.mem_iff` — the classes that are
  reached.
* `eraseDups_append_eraseDups`, `eraseDups_eraseDups_append` — what stands first
  stays first.
-/

namespace ObjectDispatch

/-! ### The first of each -/

section EraseDups

variable {α : Type}

theorem nodup_concat_of_not_mem {l : List α} {x : α} (hl : l.Nodup) (hx : x ∉ l) :
    (l ++ [x]).Nodup := by
  rw [← List.concat_eq_append]
  exact hl.concat hx

variable [DecidableEq α]

/-- A further entry stays if it is new. -/
theorem eraseDups_concat (l : List α) (x : α) :
    (l ++ [x]).eraseDups = if x ∈ l then l.eraseDups else l.eraseDups ++ [x] := by
  rw [List.eraseDups_append]
  by_cases hx : x ∈ l <;> simp [List.removeAll, List.eraseDups_cons, hx]

theorem nodup_eraseDups (l : List α) : l.eraseDups.Nodup := by
  induction l using List.reverseRecOn with
  | nil => exact List.nodup_nil
  | append_singleton l x ih =>
    rw [eraseDups_concat]
    split
    · exact ih
    · next hx => exact nodup_concat_of_not_mem ih fun h => hx (List.mem_eraseDups.mp h)

theorem eraseDups_of_nodup {l : List α} (h : l.Nodup) : l.eraseDups = l := by
  induction l using List.reverseRecOn with
  | nil => rfl
  | append_singleton l x ih =>
    obtain ⟨hl, -, hx⟩ := List.nodup_append.mp h
    rw [eraseDups_concat, if_neg (fun hmem => hx x hmem x (List.mem_singleton_self x) rfl), ih hl]

/-- What is there already adds nothing. -/
theorem eraseDups_append_of_subset {as bs : List α} (h : bs ⊆ as) :
    (as ++ bs).eraseDups = as.eraseDups := by
  have hnone : bs.removeAll as = [] := by
    rw [List.eq_nil_iff_forall_not_mem]
    intro x hx
    rw [List.removeAll, List.mem_filter] at hx
    simp [h hx.1] at hx
  rw [List.eraseDups_append, hnone, List.eraseDups_nil, List.append_nil]

theorem eraseDups_eraseDups_append (as bs : List α) :
    (as.eraseDups ++ bs).eraseDups = (as ++ bs).eraseDups := by
  induction bs using List.reverseRecOn with
  | nil => rw [List.append_nil, List.append_nil, eraseDups_of_nodup (nodup_eraseDups as)]
  | append_singleton bs x ih =>
    rw [← List.append_assoc, ← List.append_assoc, eraseDups_concat, eraseDups_concat, ih]
    simp only [List.mem_append, List.mem_eraseDups]

theorem eraseDups_append_eraseDups (as bs : List α) :
    (as ++ bs.eraseDups).eraseDups = (as ++ bs).eraseDups := by
  induction bs using List.reverseRecOn with
  | nil => rfl
  | append_singleton bs x ih =>
    rw [← List.append_assoc, eraseDups_concat bs, eraseDups_concat (as ++ bs)]
    by_cases hx : x ∈ bs
    · rw [if_pos hx, if_pos (List.mem_append_right as hx), ih]
    · rw [if_neg hx, ← List.append_assoc, eraseDups_concat, ih]
      simp only [List.mem_append, List.mem_eraseDups]

end EraseDups

namespace Registry

variable {r : Registry} {pending visited result : List ClassId}

/-- `b` is a direct superclass of `a`. -/
def Inherits (r : Registry) (a b : ClassId) : Prop := b ∈ r.supersOf a

/-- `b` is a direct superclass of `a`, which is not one of the classes `known`. -/
def InheritsBeyond (r : Registry) (known : List ClassId) (a b : ClassId) : Prop :=
  a ∉ known ∧ r.Inherits a b

/-! ### The way -/

/-- From the classes in `pending`, where those of `visited` have been reached, all
of `result` are reached. -/
inductive Explores (r : Registry) : (pending visited result : List ClassId) → Prop where
  /-- Nothing is pending. -/
  | nil (visited : List ClassId) : Explores r [] visited visited
  /-- A class that has been reached in the meantime is skipped. -/
  | seen {next : ClassId} {pending visited result : List ClassId} (hnext : next ∈ visited)
      (h : Explores r pending visited result) : Explores r (next :: pending) visited result
  /-- A class is reached, and its superclasses come first. -/
  | fresh {next : ClassId} {pending visited result : List ClassId} (hnext : next ∉ visited)
      (h : Explores r (r.supersOf next ++ pending) (visited ++ [next]) result) :
      Explores r (next :: pending) visited result

namespace Explores

/-- There is only one way. -/
theorem unique {result' : List ClassId} (h : r.Explores pending visited result)
    (h' : r.Explores pending visited result') : result = result' := by
  induction h with
  | nil => cases h'; rfl
  | seen hnext h ih =>
    cases h' with
    | seen _ h' => exact ih h'
    | fresh hnext' _ => exact absurd hnext hnext'
  | fresh hnext h ih =>
    cases h' with
    | seen hnext' _ => exact absurd hnext' hnext
    | fresh _ h' => exact ih h'

/-- What is pending is followed one after the other. -/
theorem append {pending' result' : List ClassId} (h : r.Explores pending visited result)
    (h' : r.Explores pending' result result') :
    r.Explores (pending ++ pending') visited result' := by
  induction h with
  | nil => exact h'
  | seen hnext h ih => exact .seen hnext (ih h')
  | fresh hnext h ih =>
    have ih := ih h'
    rw [List.append_assoc] at ih
    exact .fresh hnext ih

/-- What has been reached keeps its place. -/
theorem visited_prefix (h : r.Explores pending visited result) : visited <+: result := by
  induction h with
  | nil => exact List.prefix_refl _
  | seen _ _ ih => exact ih
  | fresh _ _ ih => exact (List.prefix_append _ _).trans ih

theorem visited_subset (h : r.Explores pending visited result) : visited ⊆ result :=
  h.visited_prefix.subset

theorem pending_subset (h : r.Explores pending visited result) : pending ⊆ result := by
  induction h with
  | nil => exact List.nil_subset _
  | seen hnext h ih => exact List.cons_subset.mpr ⟨h.visited_subset hnext, ih⟩
  | fresh _ h ih =>
    refine List.cons_subset.mpr ⟨h.visited_subset (by simp), fun _ hx => ?_⟩
    exact ih (List.mem_append_right _ hx)

/-- No class is reached twice. -/
theorem nodup (h : r.Explores pending visited result) (hvisited : visited.Nodup) :
    result.Nodup := by
  induction h with
  | nil => exact hvisited
  | seen _ _ ih => exact ih hvisited
  | fresh hnext _ ih => exact ih (nodup_concat_of_not_mem hvisited hnext)

/-- The superclasses of a class that is reached are reached. -/
theorem closed (h : r.Explores pending visited result) {x : ClassId} (hx : x ∈ result) :
    x ∈ visited ∨ ∀ s, r.Inherits x s → s ∈ result := by
  induction h with
  | nil => exact Or.inl hx
  | seen _ _ ih => exact ih hx
  | @fresh next _ _ _ _ h ih =>
    rcases ih hx with hx | hx
    · rw [List.mem_append, List.mem_singleton] at hx
      rcases hx with hx | rfl
      · exact Or.inl hx
      · -- its superclasses were put in front of what is pending
        exact Or.inr fun s hs => h.pending_subset (List.mem_append_left _ hs)
    · exact Or.inr hx

/-- Only what can be reached is reached, and on no way that goes on from a class that
had been reached before. -/
theorem sound (h : r.Explores pending visited result) {x : ClassId} (hx : x ∈ result) :
    x ∈ visited ∨ ∃ p ∈ pending, Relation.ReflTransGen (r.InheritsBeyond visited) p x := by
  induction h with
  | nil => exact Or.inl hx
  | seen _ _ ih =>
    refine (ih hx).imp_right ?_
    rintro ⟨p, hp, hpx⟩
    exact ⟨p, List.mem_cons_of_mem _ hp, hpx⟩
  | @fresh next _ visited _ hnext _ ih =>
    rcases ih hx with hx | ⟨p, hp, hpx⟩
    · rw [List.mem_append, List.mem_singleton] at hx
      rcases hx with hx | rfl
      · exact Or.inl hx
      · exact Or.inr ⟨x, List.mem_cons_self, .refl⟩
    · -- a way that avoids the class too avoids what had been reached before it
      have hpx : Relation.ReflTransGen (r.InheritsBeyond visited) p x :=
        Relation.ReflTransGen.mono
          (fun _ _ hab => ⟨fun hmem => hab.1 (List.mem_append_left _ hmem), hab.2⟩) p x hpx
      rcases List.mem_append.mp hp with hp | hp
      · exact Or.inr ⟨next, List.mem_cons_self, .head ⟨hnext, hp⟩ hpx⟩
      · exact Or.inr ⟨p, List.mem_cons_of_mem _ hp, hpx⟩

/-- **What is reached**: what had been, and what can be reached from the pending
classes without following the superclasses of those. -/
theorem mem_iff_beyond (h : r.Explores pending visited result) {x : ClassId} :
    x ∈ result ↔
      x ∈ visited ∨ ∃ p ∈ pending, Relation.ReflTransGen (r.InheritsBeyond visited) p x := by
  refine ⟨h.sound, ?_⟩
  rintro (hx | ⟨p, hp, hpx⟩)
  · exact h.visited_subset hx
  · induction hpx with
    | refl => exact h.pending_subset hp
    | tail _ hyz ih =>
      obtain ⟨hy, hyz⟩ := hyz
      exact (h.closed ih).resolve_left hy _ hyz

/-- From a class and its superclasses the classes are reached that can be reached
from it. -/
theorem mem_iff {id : ClassId} (h : r.Explores (r.supersOf id) [id] result) {x : ClassId} :
    x ∈ result ↔ Relation.ReflTransGen r.Inherits id x := by
  constructor
  · intro hx
    rcases h.sound hx with hx | ⟨p, hp, hpx⟩
    · rw [List.mem_singleton] at hx
      rw [hx]
    · exact .head hp (Relation.ReflTransGen.mono (fun _ _ hab => hab.2) p x hpx)
  · intro hx
    induction hx with
    | refl => exact h.visited_subset List.mem_cons_self
    | @tail y z _ hyz ih =>
      rcases h.closed ih with hy | hy
      · -- the superclasses of the class itself are pending at the beginning
        rw [List.mem_singleton] at hy
        subst hy
        exact h.pending_subset hyz
      · exact hy z hyz

end Explores

/-! ### Enough steps -/

/-- How many superclasses the classes have that are not in `visited`. -/
def owed (r : Registry) (visited : List ClassId) : Nat :=
  ((List.range r.classes.length).flatMap fun i =>
    if ⟨i⟩ ∈ visited then [] else r.supersOf ⟨i⟩).length

/-- Where no part becomes longer, the whole does not. -/
theorem length_flatMap_le {α β : Type} {f g : α → List β}
    (hle : ∀ a, (f a).length ≤ (g a).length) (as : List α) :
    (as.flatMap f).length ≤ (as.flatMap g).length := by
  induction as with
  | nil => exact Nat.le_refl _
  | cons a as ih =>
    have := hle a
    rw [List.flatMap_cons, List.flatMap_cons, List.length_append, List.length_append]
    omega

/-- Where no part becomes longer and one loses `d` entries, the whole loses `d`
entries. -/
theorem length_flatMap_add_le {α β : Type} {f g : α → List β} {as : List α} {a : α} {d : Nat}
    (hle : ∀ b, (f b).length ≤ (g b).length) (ha : a ∈ as)
    (hd : (f a).length + d ≤ (g a).length) :
    (as.flatMap f).length + d ≤ (as.flatMap g).length := by
  induction as with
  | nil => cases ha
  | cons b as ih =>
    rw [List.flatMap_cons, List.flatMap_cons, List.length_append, List.length_append]
    rcases List.mem_cons.mp ha with rfl | ha
    · have := length_flatMap_le hle as
      omega
    · have := ih ha
      have := hle b
      omega

/-- With more classes visited, no class owes more. -/
theorem length_owed_le_of_subset {visited' : List ClassId} (h : visited ⊆ visited') (i : Nat) :
    (if ⟨i⟩ ∈ visited' then [] else r.supersOf ⟨i⟩).length ≤
      (if ⟨i⟩ ∈ visited then [] else r.supersOf ⟨i⟩).length := by
  by_cases hi : (⟨i⟩ : ClassId) ∈ visited
  · simp only [if_pos hi, if_pos (h hi), List.length_nil, Nat.le_refl]
  · simp only [if_neg hi]
    split
    · exact Nat.zero_le _
    · exact Nat.le_refl _

/-- A class that is reached does not owe its superclasses any more. -/
theorem owed_concat {next : ClassId} (hnext : next ∉ visited) :
    r.owed (visited ++ [next]) + (r.supersOf next).length ≤ r.owed visited := by
  have hle := length_owed_le_of_subset (r := r) (List.subset_append_left visited [next])
  unfold owed
  by_cases hlt : next.index < r.classes.length
  · refine length_flatMap_add_le hle (List.mem_range.mpr hlt) ?_
    simp [hnext]
  · -- a class that is not registered has no superclasses
    have hget : r.get? next = none := List.getElem?_eq_none (by omega)
    have hnone : r.supersOf next = [] := by simp [supersOf, hget]
    rw [hnone]
    exact length_flatMap_le hle _

/-- At the beginning all superclasses are owed that were ever declared. -/
theorem owed_nil (r : Registry) : r.owed [] = r.declaredSupers := by
  have hmap : (List.range r.classes.length).map (fun i => r.supersOf ⟨i⟩) =
      r.classes.map (·.supers) := by
    refine List.ext_getElem (by simp) fun i h _ => ?_
    have hi : i < r.classes.length := by simpa using h
    simp [supersOf, get?, List.getElem?_eq_getElem hi]
  simp only [owed, List.not_mem_nil, if_false, declaredSupers, List.flatMap_def, hmap]

theorem owed_le (r : Registry) (visited : List ClassId) : r.owed visited ≤ r.declaredSupers := by
  rw [← owed_nil]
  exact length_flatMap_le (length_owed_le_of_subset (List.nil_subset visited)) _

/-- With a step for every class that is pending or may become so, the recursion
goes to the end of the way. -/
theorem explores_preorder {n : Nat} (h : pending.length + r.owed visited ≤ n) :
    r.Explores pending visited (r.preorder n pending visited) := by
  induction n generalizing pending visited with
  | zero =>
    have hnil : pending = [] := List.length_eq_zero_iff.mp (by omega)
    subst hnil
    exact .nil visited
  | succ n ih =>
    cases pending with
    | nil => exact .nil visited
    | cons next pending =>
      rw [List.length_cons] at h
      unfold preorder
      split
      · next hnext => exact .seen (List.contains_iff_mem.mp hnext) (ih (by omega))
      · next hnext =>
        have hnext : next ∉ visited := fun hmem => hnext (List.contains_iff_mem.mpr hmem)
        have howed := owed_concat (r := r) hnext
        exact .fresh hnext (ih (by rw [List.length_append]; omega))

/-- **A heritage is what is found at the end of the way.** -/
theorem explores_linearize (r : Registry) (id : ClassId) (supers : List ClassId) :
    r.Explores supers [id] (r.linearize id supers) :=
  explores_preorder (Nat.add_le_add_left (r.owed_le [id]) _)

end Registry

end ObjectDispatch
