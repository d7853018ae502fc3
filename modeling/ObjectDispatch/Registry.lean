import ObjectDispatch.Class

/-!
# The registry of classes

Classes are registered once and never changed or removed, so a class number is
the position in the registry for good.

## Main definitions

* `Registry` — the classes in the order of their registration.
* `Registry.lookup?` — the class that a name means.

## Main results

* `get?_register_lt` — registering a class changes no other.
-/

namespace ObjectDispatch

/-- The classes in the order of their registration. -/
structure Registry where
  /-- The classes. -/
  classes : List Class := []
  deriving Inhabited

namespace Registry

/-- The class with the number `id`. -/
def get? (r : Registry) (id : ClassId) : Option Class := r.classes[id.index]?

/-- The number of the next class. -/
def nextId (r : Registry) : ClassId := ⟨r.classes.length⟩

/-- The registry with a further class. -/
def register (r : Registry) (c : Class) : Registry := ⟨r.classes ++ [c]⟩

/-- The class with a full name; the latest one, should there be several. -/
def byFullName? (r : Registry) (n : String) : Option Class :=
  (r.classes.filter (·.fullName = n)).getLast?

/-- The class that a name means: an anchored name is a full name; any other name
is read from the global namespace, and failing that as the simple name of the
only class that has it. -/
def lookup? (r : Registry) (n : String) : Option ClassId :=
  if Name.isAnchored n then (r.byFullName? n).map (·.id)
  else
    match r.byFullName? ("::" ++ n) with
    | some c => some c.id
    | none =>
        -- a simple name that several classes share means none of them
        match r.classes.filter (·.name = n) with
        | [c] => some c.id
        | _ => none

@[simp] theorem nextId_register (r : Registry) (c : Class) :
    (r.register c).nextId = ⟨r.nextId.index + 1⟩ := by
  simp [nextId, register]

/-- Registering a class changes no other. -/
theorem get?_register_lt {r : Registry} {id : ClassId} (c : Class)
    (h : id.index < r.classes.length) : (r.register c).get? id = r.get? id := by
  simp [get?, register, List.getElem?_append_left h]

/-- The registered class has the next number. -/
theorem get?_register_nextId (r : Registry) (c : Class) :
    (r.register c).get? r.nextId = some c := by
  simp [get?, register, nextId]

end Registry

end ObjectDispatch
