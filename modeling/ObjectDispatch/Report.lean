import ObjectDispatch.Dispatch.Chain
import ObjectDispatch.Dispatch.Introspection

/-!
# Reports

Values that tell everything about a class, an object or the running frame, and
what every name means in a class.  Something that may be missing is reported as a
list of at most one value, a condition as 1 or 0.

## Main definitions

* `Class.report`, `World.reportClass` — a class.
* `World.reportTables` — the names of a heritage, resolved.
* `World.reportObject` — an object.
* `World.reportFrame`, `World.reportContext` — the running frame.
-/

namespace ObjectDispatch

/-- A string that may be missing. -/
def Value.ofString? (s : Option String) : Value := .ofOption (s.map .str)

/-- The number of a class, as a value. -/
def ClassId.value (c : ClassId) : Value := .ofNat c.index

/-- The number of an object, as a value. -/
def ObjectId.value (o : ObjectId) : Value := .ofNat o.number

/-- An object that may be missing. -/
def Value.ofObject? (o : Option ObjectId) : Value := .ofOption (o.map (·.value))

/-- The word for what runs when a function is called. -/
def Code.word : Code → String
  | .script _ => "user"
  | .builtin b => b.name

/-- Everything that is recorded of a function. -/
def MemberFunction.report (f : MemberFunction) : Value :=
  .list [.str f.name, .str f.fullName, .str f.protection.word, .list (f.flags.names.map .str),
    .ofString? f.usage, .ofString? f.registration, .str f.body.word,
    .ofBool f.initializer.isSome]

/-- Everything that is recorded of a variable. -/
def Variable.report (v : Variable) : Value :=
  .list [.str v.name, .str v.fullName, .str v.protection.word, .ofOption v.init,
    .ofBool v.hook.isSome]

/-- Everything that is recorded of a component, less its class. -/
def Component.report (k : Component) : Value := .list [.str k.name, .str k.store]

/-- Everything that is recorded of a class, with the given values for its
superclasses and its heritage. -/
def Class.report (c : Class) (supers heritage : Value) : Value :=
  .list [c.id.value, .str c.name, .str c.fullName, .list (c.flags.names.map .str),
    .ofBool c.flags.plain, .list (c.functions.toList.map (·.report)),
    .list (c.ownVariables.toList.map (·.report)), .list (c.components.toList.map (·.report)),
    supers, heritage]

/-- What the name of a variable means: full name, least name, number of names,
and whether the class may use it. -/
def VarLookup.report (entry : VarLookup) : Value :=
  .list [.str entry.var.fullName, .str entry.leastName, .ofNat entry.usage,
    .ofBool entry.accessible]

/-- What `n` means as the name of a variable. -/
def Class.reportVariable (c : Class) (n : String) : Value :=
  .ofOption ((c.resolveVar? n).map (·.report))

/-- What `n` means as the name of a function. -/
def Class.reportFunction (c : Class) (n : String) : Value :=
  .ofString? ((c.resolveFunction? n).map (·.fullName))

namespace World

/-- Everything that is recorded of a class, other classes by full name. -/
def reportClass (w : World) (id : ClassId) : Except DispatchError Value := do
  let c ← w.classAt id
  return c.report (← w.fullNames c.supers) (← w.fullNames c.heritage)

/-- For each spelling of the full names of the variables of a heritage, and then
of the functions that are not builtin, what it means in the class. -/
def reportTables (w : World) (id : ClassId) : Except DispatchError Value := do
  let c ← w.classAt id
  let owners ← w.classesAt c.heritage
  let vars := owners.flatMap fun o =>
    o.ownVariables.toList.flatMap fun v => Name.spellings v.fullName
  let functions := owners.flatMap fun o =>
    (o.functions.toList.filter (!·.flags.isBuiltin)).flatMap fun f => Name.spellings f.fullName
  return .list [.list (vars.map fun n => .list [.str n, c.reportVariable n]),
    .list (functions.map fun n => .list [.str n, c.reportFunction n])]

/-- Name and class of an object, and for each class of its heritage whether it
has been constructed and what its variables hold. -/
def reportObject (w : World) (id : ObjectId) : Except DispatchError Value := do
  let o ← w.objectAt id
  let c ← w.classAt o.cls
  let owners ← w.classesAt c.heritage
  let parts := owners.map fun owner =>
    Value.list [.str owner.fullName, .ofBool (o.isConstructed owner.id),
      .list (owner.ownVariables.toList.map fun v =>
        .list [.str v.name, .ofOption (o.value? v.fullName)])]
  return .list (.str o.name :: .str c.fullName :: parts)

/-- The innermost frame, if there is one, and the number of frames. -/
def reportFrame (w : World) : Except DispatchError Value :=
  match w.stack.current? with
  | none => .ok (.list [])
  | some f => do
      let c ← w.classAt f.scope
      return .list [.str f.kind.word, .str c.fullName, .ofObject? f.object,
        .ofString? f.member, .ofNat w.stack.depth]

/-- The class and the object of the innermost frame. -/
def reportContext (w : World) : Except DispatchError Value := do
  let (scope, object) ← w.context
  return .list [.str (← w.classAt scope).fullName, .ofObject? object]

/-- The option report of the variable that a name means in an object. -/
def reportNamedOption (w : World) (object : ObjectId) (n : String) :
    Except DispatchError Value := do
  match (← w.classOf object).resolveVar? n with
  | none => return .list []
  | some entry => return .list [← w.reportOption object entry]

end World

end ObjectDispatch
