import ObjectDispatch.Dispatch.Projection

/-!
# Questions that classes answer

`info` describes the class of the object, or at class level the class whose code
runs, and the members of its heritage; `isa` asks for a class in the heritage.

## Main definitions

* `World.info`, `isa` — the builtin methods.
-/

namespace ObjectDispatch

/-- The word for what a function is. -/
def MemberFunction.role (f : MemberFunction) : String :=
  if f.flags.isBuiltin then "builtin"
  else if f.flags.isConstructor then "constructor"
  else if f.flags.isDestructor then "destructor"
  else if f.flags.isCommon then "proc"
  else "method"

/-- Protection, role, full name and arguments of a function. -/
def MemberFunction.description (f : MemberFunction) : Value :=
  .list [.str f.protection.word, .str f.role, .str f.fullName, .str (f.usage.getD "")]

/-- The first own function called `n` among the classes. -/
def functionAmong? (n : String) (classes : List Class) : Option MemberFunction :=
  classes.findSome? (·.function? n)

/-- The classes with the given numbers, as far as there are any. -/
def World.knownClasses (w : World) (ids : List ClassId) : List Class :=
  ids.filterMap w.registry.get?

/-- The function that a name means to `info`: names that mean no function of the
class can still be the name of a lifecycle function. -/
def World.describeFunction (w : World) (c : Class) (n : String) : Except DispatchError Value :=
  match (c.resolveFunction? n).or (functionAmong? n (w.knownClasses c.heritage)) with
  | some f => .ok f.description
  | none => .error (.noSuchMember n c.fullName)

/-- Protection, full name, initial and current value of a variable. -/
def World.describeVariable (w : World) (c : Class) (object : Option ObjectId) (n : String) :
    Except DispatchError Value := do
  match c.resolveVar? n with
  | none => .error (.noSuchMember n c.fullName)
  | some entry =>
      let v := entry.var
      let current ← match object with
        | some o => w.currentValue o v.fullName
        | none => pure w.marker
      return .list [.str v.protection.word, .str v.fullName, v.init.getD w.marker, current]

/-- The full names of classes. -/
def World.fullNames (w : World) (ids : List ClassId) : Except DispatchError Value := do
  return .list ((← w.classesAt ids).map fun c => .str c.fullName)

/-- What `names` gives of each class of a heritage, together. -/
def World.listMembers (w : World) (c : Class) (names : Class → List String) :
    Except DispatchError Value := do
  return .list ((← w.classesAt c.heritage).flatMap fun owner => (names owner).map .str)

/-- A question about the class `c`, asked on an object or at class level. -/
def World.infoTopic (w : World) (c : Class) (object : Option ObjectId) (topic : String) :
    List Value → Except DispatchError Value
  | [] =>
      if topic = "class" then .ok (.str c.fullName)
      else if topic = "heritage" then w.fullNames c.heritage
      else if topic = "inherit" then w.fullNames c.supers
      else if topic = "function" then w.listMembers c fun k => k.functions.toList.map (·.fullName)
      else if topic = "variable" then
        w.listMembers c fun k => k.ownVariables.toList.map (·.fullName)
      else if topic = "component" then w.listMembers c fun k => k.components.toList.map (·.name)
      else .error (.usage (.infoTopic topic))
  | n :: more =>
      if topic = "function" ∧ more.isEmpty then w.describeFunction c n.text
      else if topic = "variable" ∧ more.isEmpty then w.describeVariable c object n.text
      else if ["class", "heritage", "inherit", "component", "function",
          "variable"].contains topic then
        .error (.usage (.infoTopicArguments topic))
      else .error (.usage (.infoTopic topic))

/-- `info option ?arg arg ...?`: a question about the class. -/
def World.info (w : World) (args : List Value) : Except DispatchError Value := do
  let (scope, object) ← w.context
  let c ← w.subjectClass scope object
  match args with
  | [] => .error (.usage .infoArguments)
  | topic :: rest => w.infoTopic c object topic.text rest

/-- `isa className`: whether a class is in the heritage.  The class loader may be
asked for it. -/
def isa (evaluate : Evaluate) (args : List Value) : Run Value := do
  match ← Run.look (·.context) with
  | (_, none) => Run.fail (.usage .isaObject)
  | (_, some object) =>
      match args with
      | [name] =>
          let target ← resolveClass evaluate name.text true
          return Value.ofBool (← Run.look (·.objectIsA object target))
      | _ => Run.fail (.usage .isaArguments)

end ObjectDispatch
