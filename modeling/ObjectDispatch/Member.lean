import ObjectDispatch.Builtin
import ObjectDispatch.Expr
import ObjectDispatch.Identity

/-!
# Members of classes

Functions, variables and components, each with the class that declares it.  The
full name of a member is the full name of its class, a mark and its own name.

## Main definitions

* `MemberFunction`, `Variable`, `Component` — the members.
* `constructorName`, `destructorName`, `initializerName` — the names that
  lifecycle code runs under.
-/

namespace ObjectDispatch

/-- The name of constructors. -/
def constructorName : String := "constructor"

/-- The name of destructors. -/
def destructorName : String := "destructor"

/-- The name under which the initializer of a constructor runs. -/
def initializerName : String := "___constructor_init"

/-- What runs when a member is called. -/
inductive Code where
  /-- An expression. -/
  | script (e : Expr) : Code
  /-- A builtin method. -/
  | builtin (b : Builtin) : Code
  deriving Inhabited

/-- What a function is for. -/
structure FunctionFlags where
  /-- Runs when an object is created. -/
  isConstructor : Bool := false
  /-- Runs when an object is deleted. -/
  isDestructor : Bool := false
  /-- Installed with the class and not defined by it. -/
  isBuiltin : Bool := false
  /-- Runs at class level, without an object. -/
  isCommon : Bool := false
  deriving DecidableEq, Repr, Inhabited

/-- The names of the flags that are set, in their fixed order. -/
def FunctionFlags.names (f : FunctionFlags) : List String :=
  [(f.isConstructor, "CONSTRUCTOR"), (f.isDestructor, "DESTRUCTOR"), (f.isBuiltin, "BUILTIN"),
    (f.isCommon, "COMMON")].filterMap fun p => if p.1 then some p.2 else none

/-- A function of a class. -/
structure MemberFunction where
  /-- The declaring class. -/
  owner : ClassId
  /-- The name in the class. -/
  name : String
  /-- The full name. -/
  fullName : String
  /-- Who may call it. -/
  protection : Protection
  /-- What it is for. -/
  flags : FunctionFlags
  /-- The arguments, as descriptions show them. -/
  usage : Option String
  /-- The registration name of a builtin method. -/
  registration : Option String
  /-- What runs. -/
  body : Code
  /-- What runs before the base classes are constructed. -/
  initializer : Option Expr
  deriving Inhabited

/-- The function takes part in the lifecycle of objects, so it is not found by
name. -/
def MemberFunction.isLifecycle (f : MemberFunction) : Bool :=
  f.flags.isConstructor || f.flags.isDestructor

/-- A variable of a class. -/
structure Variable where
  /-- The declaring class. -/
  owner : ClassId
  /-- The name in the class. -/
  name : String
  /-- The full name, under which objects store the value. -/
  fullName : String
  /-- Who may use it. -/
  protection : Protection
  /-- The initial value; without one the variable starts unset. -/
  init : Option Value
  /-- What runs after `configure` has assigned the variable. -/
  hook : Option Expr
  deriving Inhabited

/-- The variable is an option of objects. -/
def Variable.isPublic (v : Variable) : Bool := v.protection = .pub

/-- A component: a slot of a composite class for an object to delegate to. -/
structure Component where
  /-- The declaring class. -/
  owner : ClassId
  /-- The name in the class. -/
  name : String
  /-- The full name of the variable that stores the access name of the object. -/
  store : String
  deriving DecidableEq, Repr, Inhabited

end ObjectDispatch
