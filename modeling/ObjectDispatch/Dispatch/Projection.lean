import ObjectDispatch.Dispatch.Composite

/-!
# Public variables as options

The public variables of an object are its options: `-name`, for any name that
means the variable in the class of the object.  `cget` reads an option,
`configure` lists, reads and sets options.  An assignment is followed by the hook
of the variable; when the hook fails, the variable is set back to what it was.

## Main definitions

* `findOption` — the variable that an option means.
* `World.reportOption` — name, default and current value of an option.
* `cget`, `configure` — the builtin methods.
* `assignOption` — one assignment with its hook.
-/

namespace ObjectDispatch

/-- The object whose options are meant, and its class. -/
def optionScope (w : World) (fault : UsageFault) : Except DispatchError (ObjectId × Class) := do
  match ← w.context with
  | (_, none) => .error (.usage fault)
  | (_, some o) => return (o, ← w.classOf o)

/-- The name after the dash of an option. -/
def afterDash? (option : String) : Option String :=
  match option.toList with
  | '-' :: cs => some (.ofList cs)
  | _ => none

/-- The public variable that an option means in a class. -/
def findOption (c : Class) (option : String) : Except DispatchError VarLookup :=
  match (afterDash? option).bind c.resolveVar? with
  | none => .error (.unknownOption option)
  | some entry => if entry.var.isPublic then .ok entry else .error (.unknownOption option)

/-- What stands for a missing value. -/
def World.marker (w : World) : Value := .str w.options.undefinedMarker

/-- The value of a variable of an object, or what stands for it. -/
def World.currentValue (w : World) (object : ObjectId) (fullName : String) :
    Except DispatchError Value := do
  return ((← w.objectAt object).value? fullName).getD w.marker

/-- The report of an option: its shortest name, its default and its current
value. -/
def World.reportOption (w : World) (object : ObjectId) (entry : VarLookup) :
    Except DispatchError Value := do
  let current ← w.currentValue object entry.var.fullName
  return .list [.str ("-" ++ entry.leastName), entry.var.init.getD w.marker, current]

/-- The reports of the public variables of `c` among `vars`. -/
def World.reportOptions (w : World) (c : Class) (object : ObjectId) :
    List Variable → Except DispatchError (List Value)
  | [] => .ok []
  | v :: vs => do
      match c.resolveVar? v.fullName with
      | none => w.reportOptions c object vs
      | some entry =>
          let report ← w.reportOption object entry
          return report :: (← w.reportOptions c object vs)

/-- The reports of all options of an object: the public variables of the heritage
of its class, in heritage order and then in the order of creation. -/
def World.listOptions (w : World) (c : Class) (object : ObjectId) :
    Except DispatchError Value := do
  let owners ← w.classesAt c.heritage
  let vars := owners.flatMap fun owner => owner.ownVariables.toList.filter (·.isPublic)
  return .list (← w.reportOptions c object vars)

/-- `cget -option`: the value of an option. -/
def cget (evaluate : Evaluate) (args : List Value) : Run Value := do
  let (object, c) ← Run.look (optionScope · .cget)
  match args with
  | [token] =>
      match ← delegated evaluate c object "cget" args with
      | some answer => return answer
      | none =>
          let entry ← Run.answer (findOption c token.text)
          Run.look (·.currentValue object entry.var.fullName)
  | _ => Run.fail (.usage .cget)

/-- Sets a variable of an object back to what it was, if the object lives. -/
def restore (object : ObjectId) (fullName : String) (previous : Option Value) : Run Unit := do
  let w ← Run.world
  if (w.objects.get? object).isSome then
    match previous with
    | some v => Run.happen (.assigned object fullName v)
    | none => Run.happen (.cleared object fullName)
  else pure ()

/-- Assigns an option and runs its hook. -/
def assignOption (enter : Enter) (object : ObjectId) (v : Variable) (value : Value) :
    Run Unit := do
  let before ← Run.look (·.objectAt object)
  Run.happen (.assigned object v.fullName value)
  match v.hook with
  | none => pure ()
  | some code =>
      let frame : Frame :=
        { scope := v.owner, object := some object, member := none, kind := .hook }
      let result ← Run.attempt (enter frame (.hook v code) [])
      match result with
      | .ok _ => pure ()
      | .error e =>
          -- the value is the one from before this pair, whatever the hook assigned
          restore object v.fullName (before.value? v.fullName)
          Run.fail (.hook v.fullName e)

/-- Assigns pairs of options and values, one after the other. -/
def assignOptions (enter : Enter) (c : Class) (object : ObjectId) : List Value → Run Unit
  | [] => pure ()
  | [token] => do
      -- an unknown option is reported rather than its missing value
      let _ ← Run.answer (findOption c token.text)
      Run.fail (.usage (.missingValue token.text))
  | token :: value :: rest => do
      let entry ← Run.answer (findOption c token.text)
      assignOption enter object entry.var value
      assignOptions enter c object rest

/-- `configure ?-option? ?value -option value...?`: all options, one option, or
assignments. -/
def configure (enter : Enter) (evaluate : Evaluate) (args : List Value) : Run Value := do
  let (object, c) ← Run.look (optionScope · .configure)
  match ← delegated evaluate c object "configure" args with
  | some answer => return answer
  | none =>
      match args with
      | [] => Run.look (·.listOptions c object)
      | [token] =>
          if (afterDash? token.text).isNone then Run.fail (.usage .configure)
          else
            let entry ← Run.answer (findOption c token.text)
            Run.look (·.reportOption object entry)
      | _ =>
          assignOptions enter c object args
          return Value.empty

end ObjectDispatch
