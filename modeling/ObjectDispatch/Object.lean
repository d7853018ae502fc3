import ObjectDispatch.Identity
import ObjectDispatch.NameMap
import ObjectDispatch.Value

/-!
# Objects

An object belongs to one class, stores the values of the variables of its
heritage under their full names, and remembers which classes have constructed it
and which have destructed it so far.

## Main definitions

* `Object` — objects.
* `ObjectTable` — the live objects, with their access names.

## Main results

* `get?_create`, `get?_remove`, `get?_update` — what is alive after each change.
-/

namespace ObjectDispatch

/-- An object. -/
structure Object where
  /-- The number of the object. -/
  id : ObjectId
  /-- The name by which programs address it. -/
  name : String
  /-- Its class. -/
  cls : ClassId
  /-- The values of its variables by full name; a variable without one is unset. -/
  vars : NameMap Value := .empty
  /-- The classes whose constructors have begun. -/
  constructed : List ClassId := []
  /-- The classes whose destructors have begun in the deletion that is going on. -/
  destructed : List ClassId := []
  deriving Inhabited

namespace Object

/-- The value of a variable. -/
def value? (o : Object) (var : String) : Option Value := o.vars.find? var

/-- The object with a variable set. -/
def set (o : Object) (var : String) (v : Value) : Object := { o with vars := o.vars.insert var v }

/-- The object with a variable unset. -/
def unset (o : Object) (var : String) : Object := { o with vars := o.vars.erase var }

/-- The constructor of the class has begun. -/
def isConstructed (o : Object) (c : ClassId) : Bool := o.constructed.contains c

/-- The destructor of the class has begun. -/
def isDestructed (o : Object) (c : ClassId) : Bool := o.destructed.contains c

/-- The object after the constructor of a class has begun. -/
def markConstructed (o : Object) (c : ClassId) : Object :=
  { o with constructed := if o.isConstructed c then o.constructed else c :: o.constructed }

/-- The object after the destructor of a class has begun. -/
def markDestructed (o : Object) (c : ClassId) : Object :=
  { o with destructed := if o.isDestructed c then o.destructed else c :: o.destructed }

/-- The object when no destructor counts as begun any more. -/
def forgetDestructed (o : Object) : Object := { o with destructed := [] }

/-- A mark that is there is not made twice. -/
theorem contains_marked (cs : List ClassId) (j k : ClassId) :
    (if cs.contains j then cs else j :: cs).contains k = true ↔ cs.contains k = true ∨ k = j := by
  simp only [List.contains_iff_mem]
  split
  · next hj => exact ⟨Or.inl, fun h => h.elim (fun hk => hk) fun hk => hk ▸ hj⟩
  · rw [List.mem_cons, or_comm]

theorem isConstructed_markConstructed (o : Object) (j k : ClassId) :
    (o.markConstructed j).isConstructed k = true ↔ o.isConstructed k = true ∨ k = j :=
  contains_marked o.constructed j k

theorem isDestructed_markDestructed (o : Object) (j k : ClassId) :
    (o.markDestructed j).isDestructed k = true ↔ o.isDestructed k = true ∨ k = j :=
  contains_marked o.destructed j k

end Object

/-- The live objects. -/
structure ObjectTable where
  /-- The live objects in the order of their creation. -/
  live : List Object := []
  /-- Which object an access name means. -/
  names : NameMap ObjectId := .empty
  /-- How many objects were ever created. -/
  created : Nat := 0
  deriving Inhabited

namespace ObjectTable

/-- The number of the next object. -/
def nextId (t : ObjectTable) : ObjectId := ⟨t.created + 1⟩

/-- The live object with a number. -/
def get? (t : ObjectTable) (id : ObjectId) : Option Object := t.live.find? (·.id = id)

/-- The object that an access name means. -/
def find? (t : ObjectTable) (name : String) : Option ObjectId := t.names.find? name

/-- How many objects are alive. -/
def size (t : ObjectTable) : Nat := t.live.length

/-- The table with a new object; the name means it from now on. -/
def create (t : ObjectTable) (name : String) (cls : ClassId) : ObjectTable :=
  { live := t.live ++ [{ id := t.nextId, name := name, cls := cls }]
    names := t.names.insert name t.nextId
    created := t.created + 1 }

/-- The table without an object; its name means nothing any more. -/
def remove (t : ObjectTable) (id : ObjectId) : ObjectTable :=
  match t.get? id with
  | none => t
  | some o => { t with live := t.live.filter (·.id ≠ id), names := t.names.erase o.name }

/-- The table with an object changed by `f`, which keeps its number. -/
def update (t : ObjectTable) (id : ObjectId) (f : Object → Object) : ObjectTable :=
  { t with live := t.live.map fun o => if o.id = id then { f o with id := id } else o }

/-- A new object is alive, as it was made, and the others are as before. -/
theorem get?_create (t : ObjectTable) (name : String) (cls : ClassId) (id : ObjectId) :
    (t.create name cls).get? id =
      (t.get? id).or (if t.nextId = id then some { id := t.nextId, name, cls } else none) := by
  simp only [create, get?, List.find?_append, List.find?_cons, List.find?_nil]
  by_cases h : t.nextId = id <;> simp [h]

/-- A removed object is not alive, and the others are as before. -/
theorem get?_remove (t : ObjectTable) (id k : ObjectId) :
    (t.remove id).get? k = if k = id then none else t.get? k := by
  unfold remove
  cases ho : t.get? id with
  | none => by_cases hk : k = id <;> simp [hk, ho]
  | some o =>
    simp only [get?, List.find?_filter]
    by_cases hk : k = id
    · subst hk
      simp only [if_true, List.find?_eq_none]
      intro x _ hx
      simp at hx
    · rw [if_neg hk]
      congr 1
      funext x
      by_cases hx : x.id = k
      · simp [hx, hk]
      · simp [hx]

/-- A change to one object is seen at that object and nowhere else. -/
theorem get?_update (t : ObjectTable) (id k : ObjectId) (f : Object → Object) :
    (t.update id f).get? k =
      if k = id then (t.get? k).map fun o => { f o with id := id } else t.get? k := by
  simp only [update, get?, List.find?_map]
  by_cases hk : k = id
  · subst hk
    have hp : ((fun o : Object => decide (o.id = k)) ∘
        fun o => if o.id = k then { f o with id := k } else o) = fun o => decide (o.id = k) := by
      funext o
      by_cases ho : o.id = k <;> simp [ho]
    rw [hp, if_pos rfl]
    cases hfind : t.live.find? fun o => decide (o.id = k) with
    | none => rfl
    | some o =>
      have ho : o.id = k := by simpa using List.find?_some hfind
      simp [ho]
  · rw [if_neg hk]
    have hp : ((fun o : Object => decide (o.id = k)) ∘
        fun o => if o.id = id then { f o with id := id } else o) = fun o => decide (o.id = k) := by
      funext o
      by_cases ho : o.id = id
      · have : id ≠ k := fun h => hk h.symm
        simp [ho, this]
      · simp [ho]
    rw [hp]
    cases hfind : t.live.find? fun o => decide (o.id = k) with
    | none => rfl
    | some o =>
      have ho : o.id = k := by simpa using List.find?_some hfind
      simp [ho, hk]

end ObjectTable

end ObjectDispatch
