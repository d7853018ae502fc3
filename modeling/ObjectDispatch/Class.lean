import ObjectDispatch.Member
import ObjectDispatch.MemberTable
import ObjectDispatch.Name
import ObjectDispatch.NameMap

/-!
# Classes

A class owns functions, variables and components, and knows its heritage: itself
and its ancestors, in the order in which members are looked for.  Two tables say
what names mean in it; they are made once, when the class is defined.

## Main definitions

* `VarLookup` — what the name of a variable means in a class.
* `Class` — classes.
* `Class.addFunction`, `Class.addVariable`, `Class.addComponent` — a further
  member, refused when its name is taken.
* `Class.publicMethodNames` — the methods that everybody may call.
-/

namespace ObjectDispatch

/-- What the name of a variable means in a class. -/
structure VarLookup where
  /-- The variable. -/
  var : Variable
  /-- The first spelling of the full name that means this variable. -/
  leastName : String
  /-- How many names mean this variable. -/
  usage : Nat
  /-- The code of the class may use the variable. -/
  accessible : Bool
  deriving Inhabited

/-- A class. -/
structure Class where
  /-- The number of the class. -/
  id : ClassId
  /-- The full name. -/
  fullName : String
  /-- The direct superclasses, in the order of their declaration. -/
  supers : List ClassId
  /-- What is recorded of the definition. -/
  flags : ClassFlags
  /-- The class itself and its ancestors, each once. -/
  heritage : List ClassId
  /-- Its own functions. -/
  functions : MemberTable MemberFunction := .empty
  /-- Its own variables. -/
  ownVariables : MemberTable Variable := .empty
  /-- Its own components. -/
  components : MemberTable Component := .empty
  /-- What names of variables mean in it. -/
  varNames : NameMap VarLookup := .empty
  /-- What names of functions mean in it. -/
  functionNames : NameMap MemberFunction := .empty
  deriving Inhabited

/-- The names in `names`, in the order of their characters. -/
def sortNames (names : List String) : List String :=
  names.foldr insertSorted []
where
  /-- `n` put before the first name that is not smaller. -/
  insertSorted (n : String) : List String → List String
    | [] => [n]
    | m :: ms => if m < n then m :: insertSorted n ms else n :: m :: ms

/-- Putting a name in its place keeps the others. -/
theorem sortNames.insertSorted_perm (n : String) (ns : List String) :
    (sortNames.insertSorted n ns).Perm (n :: ns) := by
  induction ns with
  | nil => exact .refl _
  | cons m ms ih =>
    unfold sortNames.insertSorted
    split
    · exact (ih.cons m).trans (.swap n m ms)
    · exact .refl _

/-- Sorting keeps every name. -/
theorem sortNames_perm (names : List String) : (sortNames names).Perm names := by
  induction names with
  | nil => exact .refl _
  | cons n ns ih => exact (sortNames.insertSorted_perm n _).trans (ih.cons n)

namespace Class

/-- The simple name of the class. -/
def name (c : Class) : String := Name.simple c.fullName

/-- The full name of a member of the class. -/
def memberName (c : Class) (n : String) : String := Name.member c.fullName n

/-- The own function called `n`. -/
def function? (c : Class) (n : String) : Option MemberFunction := c.functions.get? n

/-- The own variable called `n`. -/
def ownVariable? (c : Class) (n : String) : Option Variable := c.ownVariables.get? n

/-- The own component called `n`. -/
def component? (c : Class) (n : String) : Option Component := c.components.get? n

/-- The class defines a function called `n` itself. -/
def hasFunction (c : Class) (n : String) : Bool := c.functions.contains n

/-- The variable that `n` means in the class. -/
def resolveVar? (c : Class) (n : String) : Option VarLookup := c.varNames.find? n

/-- The function that `n` means in the class. -/
def resolveFunction? (c : Class) (n : String) : Option MemberFunction := c.functionNames.find? n

/-- The class with a further function. -/
def addFunction (c : Class) (f : MemberFunction) : Except DispatchError Class :=
  match c.functions.insert? f.name f with
  | some t => .ok { c with functions := t }
  | none => .error (.creation (.functionTaken f.name c.fullName))

/-- The class with a further variable. -/
def addVariable (c : Class) (v : Variable) : Except DispatchError Class :=
  match c.ownVariables.insert? v.name v with
  | some t => .ok { c with ownVariables := t }
  | none => .error (.creation (.variableTaken v.name c.fullName))

/-- The class with a further component. -/
def addComponent (c : Class) (k : Component) : Except DispatchError Class :=
  match c.components.insert? k.name k with
  | some t => .ok { c with components := t }
  | none => .error (.creation (.componentTaken k.name c.fullName))

/-- The simple names of the functions that everybody may call, sorted. -/
def publicMethodNames (c : Class) : List String :=
  sortNames <| c.functionNames.entries.filterMap fun p =>
    if p.1 = p.2.name ∧ p.2.protection = .pub then some p.1 else none

end Class

end ObjectDispatch
