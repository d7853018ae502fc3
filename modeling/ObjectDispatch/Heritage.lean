import ObjectDispatch.Registry

/-!
# Heritage

The heritage of a class is the class itself and then its ancestors, each direct
superclass in the order of declaration followed by what it inherits in turn.  A
class that is reached along several ways stands where it is reached first.

The heritage is found by following a list of classes that are still to be
visited.  Each step takes one class off that list, and only the first visit of a
registered class puts its superclasses on it, so the steps are at most as many
as the superclasses that were ever declared.

## Main definitions

* `Registry.linearize` — the heritage of a class from its superclasses.
* `Walk` — a walk along a heritage that remembers how far it has come.
-/

namespace ObjectDispatch

namespace Registry

/-- The superclasses recorded for a class; none if it is not registered. -/
def supersOf (r : Registry) (id : ClassId) : List ClassId :=
  ((r.get? id).map (·.supers)).getD []

/-- The classes of `visited` and those reached from `pending`, by at most `steps`
steps. -/
def preorder (r : Registry) : (steps : Nat) → (pending visited : List ClassId) → List ClassId
  | 0, _, visited => visited
  | _ + 1, [], visited => visited
  | n + 1, next :: pending, visited =>
      -- a class that is reached a second time has its place already
      if visited.contains next then r.preorder n pending visited
      else r.preorder n (r.supersOf next ++ pending) (visited ++ [next])

/-- How many superclasses were ever declared. -/
def declaredSupers (r : Registry) : Nat :=
  (r.classes.flatMap (·.supers)).length

/-- The heritage of the class `id` with the direct superclasses `supers`. -/
def linearize (r : Registry) (id : ClassId) (supers : List ClassId) : List ClassId :=
  r.preorder (supers.length + r.declaredSupers) supers [id]

end Registry

/-- A walk along a heritage. -/
structure Walk where
  /-- The classes passed, the latest first. -/
  passed : List ClassId := []
  /-- The classes to come. -/
  ahead : List ClassId
  deriving DecidableEq, Repr, Inhabited

namespace Walk

/-- The walk that has not begun. -/
def start (heritage : List ClassId) : Walk := { ahead := heritage }

/-- The next class and the walk after it; at the end the walk stays. -/
def advance (w : Walk) : Option ClassId × Walk :=
  match w.ahead with
  | [] => (none, w)
  | c :: rest => (some c, ⟨c :: w.passed, rest⟩)

/-- A walk is a stream of the classes to come. -/
instance : Std.Stream Walk ClassId where
  next? w :=
    match w.advance with
    | (some c, rest) => some (c, rest)
    | (none, _) => none

/-- Passes classes until `target` has been passed; tells whether it was. -/
def skipAlong (target : ClassId) : List ClassId → List ClassId → Bool × Walk
  | passed, [] => (false, ⟨passed, []⟩)
  | passed, c :: rest =>
      if c = target then (true, ⟨c :: passed, rest⟩) else skipAlong target (c :: passed) rest

/-- Goes on until `target` has been passed, or to the end if it does not come;
tells whether it came. -/
def skipPast (w : Walk) (target : ClassId) : Bool × Walk :=
  skipAlong target w.passed w.ahead

/-- The whole heritage. -/
def whole (w : Walk) : List ClassId := w.passed.reverse ++ w.ahead

end Walk

end ObjectDispatch
