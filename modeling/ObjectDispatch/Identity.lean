/-!
# Identities

Classes are numbered from 0 in the order of their registration, objects from 1
in the order of their creation, and neither number is ever given twice.

## Main definitions

* `ClassId`, `ObjectId` — the numbers, kept apart by their types.
-/

namespace ObjectDispatch

/-- The number of a class: its position in the registry. -/
structure ClassId where
  /-- How many classes were registered before it. -/
  index : Nat
  deriving DecidableEq, Repr, Inhabited

/-- The number of an object. -/
structure ObjectId where
  /-- How many objects had been created when it was, itself included. -/
  number : Nat
  deriving DecidableEq, Repr, Inhabited

/-- How messages write a class whose name is not known. -/
def ClassId.text (c : ClassId) : String := "class#" ++ toString c.index

/-- How messages write an object whose name is not known. -/
def ObjectId.text (o : ObjectId) : String := "object#" ++ toString o.number

end ObjectDispatch
