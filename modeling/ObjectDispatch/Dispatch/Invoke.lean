import ObjectDispatch.Run

/-!
# Calling members

A member is called by name on an object or, for class-level code, on a class.
The name is resolved in the class that is asked, the protection of the function
is checked against the calling frame, and its body runs in a frame of its own.

The functions here and in the other modules of dispatch are given the means to
run code in a further frame as an argument, an `Enter`; what that can do in turn
is settled where evaluation is defined.

## Main definitions

* `enterFrame` — runs code in a frame that is left again however it ends.
* `callMember` — runs the body of a function.
* `checkAccess` — protection.
* `invoke`, `invokeProc` — calls by name.
* `evalWithin` — an expression in the scope of a class.
-/

namespace ObjectDispatch

/-- The means to run something in a further frame. -/
abbrev Enter : Type := Frame → Activity → List Value → Run Value

/-- The error in an answer, if it is one. -/
def failure? : Except DispatchError Value → Option DispatchError
  | .ok _ => none
  | .error e => some e

/-- Runs the code of an activity in a further frame, by means of `runCode`.  The
frame is left again however the code ends; a frame that does not fit on the stack
is refused. -/
def enterFrame (runCode : Code → List Value → Run Value) : Enter := fun frame activity args => do
  let w ← Run.world
  match w.stack.push frame with
  | .error e =>
      Run.happen (.refused frame activity)
      Run.fail e
  | .ok _ =>
      Run.happen (.entered frame activity)
      let result ← Run.attempt (runCode activity.code args)
      Run.happen (.left (failure? result))
      Run.answer result

/-- The kind of frame in which a function runs on an object or on none. -/
def MemberFunction.frameKind (f : MemberFunction) (object : Option ObjectId) : FrameKind :=
  if f.flags.isBuiltin then .builtin
  else if f.flags.isConstructor then .ctor
  else if f.flags.isDestructor then .dtor
  else if object.isNone then .proc
  else .method

/-- Runs the body of a function in the scope of its declaring class. -/
def callMember (enter : Enter) (f : MemberFunction) (object : Option ObjectId)
    (calledAs : String) (args : List Value) : Run Value :=
  enter { scope := f.owner, object := object, member := some calledAs, kind := f.frameKind object }
    (.body f) args

/-- Whether the code of a frame with the scope `caller` may call `f` on `target`:
protected functions are for the classes of the heritage of `target`, private ones
for the declaring class. -/
def mayCall (caller : Option ClassId) (f : MemberFunction) (target : Class) : Bool :=
  match f.protection with
  | .pub => true
  | .prot =>
      match caller with
      | some c => target.heritage.contains c
      | none => false
  | .priv => caller = some f.owner

/-- Refuses a call that the innermost frame may not make. -/
def checkAccess (w : World) (f : MemberFunction) (calledAs : String) (target : Class) :
    Except DispatchError Unit :=
  if mayCall (w.stack.current?.map (·.scope)) f target then .ok ()
  else .error (.protection calledAs f.protection)

/-- The function that a name means in a class, if the innermost frame may call
it. -/
def callable (target : Class) (name : String) (w : World) :
    Except DispatchError MemberFunction :=
  match target.resolveFunction? name with
  | none => .error (.unknownMethod name target.publicMethodNames)
  | some f => do
      checkAccess w f name target
      return f

/-- Calls a member on an object.  A procedure runs without the object. -/
def invoke (enter : Enter) (object : ObjectId) (name : String) (args : List Value) :
    Run Value := do
  let target ← Run.look (·.classOf object)
  let f ← Run.look (callable target name)
  callMember enter f (if f.flags.isCommon then none else some object) name args

/-- Calls a member at class level, where only procedures and builtin methods
run. -/
def invokeProc (enter : Enter) (cls : ClassId) (name : String) (args : List Value) :
    Run Value := do
  let target ← Run.look (·.classAt cls)
  let f ← Run.look (callable target name)
  if !f.flags.isCommon && !f.flags.isBuiltin then
    Run.fail (.scope (.instanceOnly f.fullName))
  else callMember enter f none name args

/-- There is a class of that number, and an object if one is given. -/
def World.hasScope (w : World) (cls : ClassId) (object : Option ObjectId) :
    Except DispatchError Unit := do
  let _ ← w.classAt cls
  match object with
  | some o => do let _ ← w.objectAt o
  | none => return ()

/-- Evaluates an expression in the scope of a class, on an object if one is
given. -/
def evalWithin (enter : Enter) (cls : ClassId) (object : Option ObjectId) (body : Expr)
    (args : List Value) : Run Value := do
  Run.look (·.hasScope cls object)
  enter { scope := cls, object := object, member := none, kind := .eval } (.scoped body) args

end ObjectDispatch
