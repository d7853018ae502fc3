import ObjectDispatch.Class.Resolution
import ObjectDispatch.Options

/-!
# Defining classes

A definition becomes a class in a fixed order: its superclasses are found, its
functions and then its variables are added, the builtin methods that its
heritage lacks are installed, a composite class gets its hull and its options
variable, and the tables of names are made.  The first fault ends it, and a
faulty definition defines nothing.

## Main definitions

* `Class.installBuiltins` — the builtin methods that the heritage lacks.
* `Class.installComponent`, `Class.installOptionsVariable` — the members of
  composite classes.
* `ClassDecl.build` — the class that a definition makes.
-/

namespace ObjectDispatch

namespace Class

/-! ### Builtin methods -/

/-- Some class of the heritage defines a function called `n`. -/
def inheritsFunction (c : Class) (r : Registry) (n : String) : Bool :=
  c.heritage.any fun id =>
    if id = c.id then c.hasFunction n
    else
      match r.get? id with
      | some ancestor => ancestor.hasFunction n
      | none => false

/-- A builtin method as a function of the class. -/
def builtinFunction (c : Class) (o : EngineOptions) (b : Builtin) : MemberFunction :=
  { owner := c.id
    name := b.name
    fullName := c.memberName b.name
    protection := .pub
    flags := { isBuiltin := true }
    usage := some b.usage
    registration := some (o.registrationName b.name)
    body := .builtin b
    initializer := none }

/-- Installs those of the builtin methods that the heritage of the class lacks,
one after the other; what was installed before a fault stays.  The answer is the
number of methods installed, on top of `installed`. -/
def installEach (r : Registry) (o : EngineOptions) :
    List Builtin → (installed : Nat) → Class → Class × Except DispatchError Nat
  | [], installed, c => (c, .ok installed)
  | b :: bs, installed, c =>
      if c.inheritsFunction r b.name then installEach r o bs installed c
      else
        match c.addFunction (c.builtinFunction o b) with
        | .ok c => installEach r o bs (installed + 1) c
        | .error e => (c, .error e)

/-- Installs the builtin methods that the heritage of the class lacks; answers
how many. -/
def installBuiltins (c : Class) (r : Registry) (o : EngineOptions) :
    Class × Except DispatchError Nat :=
  installEach r o Builtin.all 0 c

/-! ### Composite classes -/

/-- A protected variable of the class without a value. -/
def protectedVariable (c : Class) (n : String) : Variable :=
  { owner := c.id
    name := n
    fullName := c.memberName n
    protection := .prot
    init := none
    hook := none }

/-- The class with the component `n`, which is kept in the variable of that name,
and whether it had to be added. -/
def installComponent (c : Class) (n : String) : Except DispatchError (Class × Bool) :=
  if (c.component? n).isSome then .ok (c, false)
  else do
    -- a variable that the definition declares under this name keeps the component
    let c' ← match c.ownVariable? n with
      | some _ => .ok c
      | none => c.addVariable (c.protectedVariable n)
    let store := ((c.ownVariable? n).map (·.fullName)).getD (c.memberName n)
    return (← c'.addComponent { owner := c.id, name := n, store := store }, true)

/-- The class with the options variable `n`, and whether it had to be added. -/
def installOptionsVariable (c : Class) (n : String) : Except DispatchError (Class × Bool) :=
  if (c.ownVariable? n).isSome then .ok (c, false)
  else do return (← c.addVariable (c.protectedVariable n), true)

/-- The class with the members that composite classes have. -/
def installComposite (c : Class) (o : EngineOptions) : Except DispatchError Class := do
  let (c, _) ← c.installComponent o.hullComponent
  let (c, _) ← c.installOptionsVariable o.optionsVariable
  return c

end Class

namespace MemberDecl

/-- The function that a declaration adds to class `c`, if it declares one. -/
def toFunction? (c : Class) : MemberDecl Expr → Option MemberFunction
  | .method n level body => some (make n level {} body none)
  | .procedure n body => some (make n .pub { isCommon := true } body none)
  | .ctor initializer body =>
      some (make constructorName .pub { isConstructor := true } body initializer)
  | .dtor body => some (make destructorName .pub { isDestructor := true } body none)
  | .var _ _ _ | .option _ _ _ => none
where
  /-- A function of `c` with the given parts. -/
  make (n : String) (level : Protection) (flags : FunctionFlags) (body : Expr)
      (initializer : Option Expr) : MemberFunction :=
    { owner := c.id
      name := n
      fullName := c.memberName n
      protection := level
      flags := flags
      usage := none
      registration := none
      body := .script body
      initializer := initializer }

/-- The variable that a declaration adds to class `c`, if it declares one. -/
def toVariable? (c : Class) : MemberDecl Expr → Option Variable
  | .var n level init => some (make n level init none)
  | .option n init hook => some (make n .pub init (some hook))
  | .method _ _ _ | .procedure _ _ | .ctor _ _ | .dtor _ => none
where
  /-- A variable of `c` with the given parts. -/
  make (n : String) (level : Protection) (init : Option Value) (hook : Option Expr) : Variable :=
    { owner := c.id
      name := n
      fullName := c.memberName n
      protection := level
      init := init
      hook := hook }

end MemberDecl

namespace Class

/-- The class with a declared function, whose name must not be qualified. -/
def declareFunction (c : Class) (f : MemberFunction) : Except DispatchError Class :=
  if Name.isQualified f.name then .error (.creation (.badFunctionName f.name))
  else c.addFunction f

/-- The class with a declared variable, whose name must not be qualified. -/
def declareVariable (c : Class) (v : Variable) : Except DispatchError Class :=
  if Name.isQualified v.name then .error (.creation (.badVariableName v.name))
  else c.addVariable v

end Class

namespace ClassDecl

/-- The full name of the class. -/
def fullName (d : ClassDecl Expr) : String := Name.anchor d.name

/-- What is recorded of the definition. -/
def flags (d : ClassDecl Expr) : ClassFlags :=
  hullFlags d.kind { d.kind.flags with toplevel := d.toplevel }

/-- The superclasses that names mean, behind those in `found`: each must be a
class and none may come twice. -/
def findSupers (d : ClassDecl Expr) (r : Registry) :
    List String → (found : List ClassId) → Except DispatchError (List ClassId)
  | [], found => .ok found
  | n :: ns, found =>
      match r.lookup? n with
      | none => .error (.unknownClass n)
      | some id =>
          if found.contains id then .error (.creation (.inheritsTwice d.fullName n))
          else findSupers d r ns (found ++ [id])

/-- The class before it has members. -/
def bare (d : ClassDecl Expr) (r : Registry) (supers : List ClassId) : Class :=
  { id := r.nextId
    fullName := d.fullName
    supers := supers
    flags := d.flags
    heritage := r.linearize r.nextId supers }

/-- The class with the members that are declared: functions first. -/
def declareMembers (d : ClassDecl Expr) (c : Class) : Except DispatchError Class := do
  let c ← (d.members.filterMap (MemberDecl.toFunction? c)).foldlM Class.declareFunction c
  (d.members.filterMap (MemberDecl.toVariable? c)).foldlM Class.declareVariable c

/-- The class that a definition makes, ready to be registered in `r`. -/
def build (d : ClassDecl Expr) (r : Registry) (o : EngineOptions) :
    Except DispatchError Class :=
  if (r.byFullName? d.fullName).isSome then .error (.creation (.classExists d.fullName))
  else do
    let supers ← d.findSupers r d.inherits []
    let declared ← d.declareMembers (d.bare r supers)
    let (c, outcome) := declared.installBuiltins r o
    let _ ← outcome
    let c ← if d.kind.isComposite then c.installComposite o else .ok c
    return c.resolved r

end ClassDecl

end ObjectDispatch
