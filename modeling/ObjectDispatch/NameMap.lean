/-!
# Maps keyed by names

The stores of the library that look things up by name: variable values of an
object, access names of objects, the resolution tables of a class.

## Main definitions

* `NameMap α` — a finite map from names to `α`.

## Main results

* `find?_insert`, `find?_erase`, `find?_claim` — what a look-up finds after an update.
-/

namespace ObjectDispatch

/-- A finite map from names, as a list in which the first entry of a name
counts. -/
structure NameMap (α : Type) where
  /-- The entries. -/
  entries : List (String × α)
  deriving Inhabited

namespace NameMap

variable {α : Type}

/-- The map with no entries. -/
def empty : NameMap α := ⟨[]⟩

/-- What `n` is mapped to. -/
def find? (m : NameMap α) (n : String) : Option α := m.entries.lookup n

/-- `n` is mapped to something. -/
def contains (m : NameMap α) (n : String) : Bool := (m.find? n).isSome

/-- The map without `n`. -/
def erase (m : NameMap α) (n : String) : NameMap α := ⟨m.entries.filter (·.1 != n)⟩

/-- The map with `n` mapped to `a`, whatever it was mapped to before. -/
def insert (m : NameMap α) (n : String) (a : α) : NameMap α := ⟨(n, a) :: (m.erase n).entries⟩

/-- The map with `n` mapped to `a` unless `n` is mapped already. -/
def claim (m : NameMap α) (n : String) (a : α) : NameMap α :=
  if m.contains n then m else m.insert n a

@[simp] theorem find?_empty (n : String) : (empty : NameMap α).find? n = none := rfl

/-- A look-up reads the entries from the front. -/
theorem find?_cons (n k : String) (a : α) (es : List (String × α)) :
    (NameMap.mk ((n, a) :: es)).find? k = if k = n then some a else (NameMap.mk es).find? k := by
  by_cases hk : k = n
  · subst hk; simp [find?]
  · have hbeq : (k == n) = false := by simpa using hk
    simp [find?, List.lookup_cons, hbeq, hk]

/-- Erasing a name forgets that name and nothing else. -/
theorem find?_erase (m : NameMap α) (n k : String) :
    (m.erase n).find? k = if k = n then none else m.find? k := by
  obtain ⟨es⟩ := m
  induction es with
  | nil => simp [erase, find?]
  | cons e es ih =>
    obtain ⟨x, a⟩ := e
    by_cases hx : x = n
    · -- the entry is dropped
      have herase : (NameMap.mk ((x, a) :: es)).erase n = (NameMap.mk es).erase n := by
        simp [erase, hx]
      rw [herase, ih, find?_cons]
      by_cases hk : k = n <;> simp [hk, hx]
    · -- the entry is kept
      have herase : (NameMap.mk ((x, a) :: es)).erase n =
          NameMap.mk ((x, a) :: ((NameMap.mk es).erase n).entries) := by
        simp [erase, hx]
      rw [herase, find?_cons, find?_cons, ih]
      by_cases hk : k = n
      · subst hk; simp [Ne.symm hx]
      · simp [hk]

/-- Inserting a name sets that name and nothing else. -/
theorem find?_insert (m : NameMap α) (n k : String) (a : α) :
    (m.insert n a).find? k = if k = n then some a else m.find? k := by
  rw [insert, find?_cons, find?_erase]
  by_cases hk : k = n <;> simp [hk]

/-- Claiming a name sets it if it is free, and nothing else. -/
theorem find?_claim (m : NameMap α) (n k : String) (a : α) :
    (m.claim n a).find? k = if k = n then (m.find? n).or (some a) else m.find? k := by
  unfold claim contains
  cases hn : m.find? n with
  | some b => by_cases hk : k = n <;> simp [hk, hn]
  | none => simp [find?_insert]

end NameMap

end ObjectDispatch
