/-!
# Member tables

The members of one class: each under its own name, in the order of their
creation.

## Main definitions

* `MemberTable α` — the table.
* `MemberTable.insert?` — a further member, refused when its name is taken.

## Main results

* `insert?_eq_none_iff` — only a taken name is refused.
* `toList_insert?` — an insertion comes last.
* `get?_eq_some_iff`, `get?_insert?` — what a look-up finds.
-/

namespace ObjectDispatch

/-- Members under distinct names, in the order of their creation. -/
structure MemberTable (α : Type) where
  /-- The members with their names. -/
  entries : List (String × α) := []
  /-- No name is used twice. -/
  names_nodup : (entries.map Prod.fst).Nodup := by exact List.nodup_nil

namespace MemberTable

variable {α : Type}

/-- The table with no members. -/
def empty : MemberTable α := {}

instance : Inhabited (MemberTable α) := ⟨empty⟩

/-- The names of the members. -/
def names (t : MemberTable α) : List String := t.entries.map Prod.fst

/-- The members. -/
def toList (t : MemberTable α) : List α := t.entries.map Prod.snd

/-- The member called `n`. -/
def get? (t : MemberTable α) (n : String) : Option α := t.entries.lookup n

/-- There is a member called `n`. -/
def contains (t : MemberTable α) (n : String) : Bool := t.names.contains n

/-- The number of members. -/
def size (t : MemberTable α) : Nat := t.entries.length

/-- The table with the member `a` called `n` at its end, unless `n` is taken. -/
def insert? (t : MemberTable α) (n : String) (a : α) : Option (MemberTable α) :=
  if h : t.contains n = true then none
  else some
    { entries := t.entries ++ [(n, a)]
      names_nodup := by
        rw [List.map_append, List.nodup_append]
        refine ⟨t.names_nodup, by simp, ?_⟩
        intro x hx y hy
        simp only [List.map_cons, List.map_nil, List.mem_singleton] at hy
        rintro rfl
        exact h (List.contains_iff_mem.mpr (hy ▸ hx)) }

/-- Only a taken name is refused. -/
theorem insert?_eq_none_iff {t : MemberTable α} {n : String} {a : α} :
    t.insert? n a = none ↔ t.contains n = true := by
  unfold insert?
  split <;> simp_all

/-- A new member comes last. -/
theorem toList_insert? {t t' : MemberTable α} {n : String} {a : α}
    (h : t.insert? n a = some t') : t'.toList = t.toList ++ [a] := by
  unfold insert? at h
  split at h
  · simp at h
  · simp only [Option.some.injEq] at h
    subst h
    simp [toList]

/-- The member called `n` is the only entry of that name. -/
theorem get?_eq_some_iff {t : MemberTable α} {n : String} {a : α} :
    t.get? n = some a ↔ (n, a) ∈ t.entries := by
  obtain ⟨es, hnodup⟩ := t
  simp only [get?]
  induction es with
  | nil => simp
  | cons e es ih =>
    obtain ⟨x, b⟩ := e
    simp only [List.map_cons, List.nodup_cons, List.mem_map, not_exists, not_and] at hnodup
    by_cases hx : n = x
    · -- no later entry has the name
      subst hx
      have hfresh : (n, a) ∉ es := fun h => hnodup.1 (n, a) h rfl
      simp [hfresh, eq_comm]
    · have hbeq : (n == x) = false := by simpa using hx
      simp [List.lookup_cons, hbeq, hx, ih hnodup.2]

/-- A look-up that finds something finds a member of the table. -/
theorem mem_toList_of_get? {t : MemberTable α} {n : String} {a : α} (h : t.get? n = some a) :
    a ∈ t.toList :=
  List.mem_map.mpr ⟨(n, a), get?_eq_some_iff.mp h, rfl⟩

/-- A further member is found under its name, and the others are found as before. -/
theorem get?_insert? {t t' : MemberTable α} {n : String} {a : α} (h : t.insert? n a = some t')
    (k : String) : t'.get? k = if k = n then some a else t.get? k := by
  unfold insert? at h
  split at h
  · simp at h
  · next hfree =>
    simp only [Option.some.injEq] at h
    subst h
    simp only [get?, List.lookup_append, List.lookup_cons, List.lookup_nil]
    by_cases hk : k = n
    · -- the name was free, so the entry at the end is the first of it
      subst hk
      have hnone : t.entries.lookup k = none := by
        rw [List.lookup_eq_none_iff]
        intro p hp
        simp only [contains, names, List.contains_iff_mem, List.mem_map, not_exists,
          not_and] at hfree
        simpa using fun h => hfree p hp h.symm
      simp [hnone]
    · have hbeq : (k == n) = false := by simpa using hk
      simp [hbeq, hk]

end MemberTable

end ObjectDispatch
