import ObjectDispatch.Dispatch.Invoke

/-!
# The life of objects

An object is created in its class: its variables get their initial values, and
its classes are constructed, each after its superclasses and each once.  It is
deleted by running the destructors of its classes in heritage order; when one of
them fails, the object lives on.

A class is constructed by its constructor if it defines one — the initializer,
the superclasses, then the body — and otherwise by constructing its
superclasses.  The mark that a class has been constructed is set first, so that
nothing that runs in between constructs it again.

Superclasses have smaller numbers than their subclasses, so the number of a class
bounds how deep the construction of superclasses can nest.

## Main definitions

* `createObject`, `deleteObject` — the beginning and the end.
* `constructClass`, `runConstructor` — construction of one class.
-/

namespace ObjectDispatch

/-- Gives the variables of the classes their initial values. -/
def initializeVariables (object : ObjectId) (classes : List ClassId) : Run Unit :=
  classes.forM fun id => do
    let c ← Run.look (·.classAt id)
    let _ ← Run.look (·.objectAt object)
    c.ownVariables.toList.forM fun v =>
      match v.init with
      | some x => Run.happen (.assigned object v.fullName x)
      | none => pure ()

/-- Runs the initializer of a constructor, if it has one. -/
def runInitializer (enter : Enter) (ctor : MemberFunction) (object : ObjectId)
    (args : List Value) : Run Unit :=
  match ctor.initializer with
  | none => pure ()
  | some code => do
      let frame : Frame :=
        { scope := ctor.owner, object := some object, member := some initializerName,
          kind := .ctor }
      let _ ← enter frame (.initializer ctor code) args

/-- Runs the constructor of a class unless it has begun for this object already:
the initializer, the superclasses by means of `constructSuper`, then the body. -/
def runConstructorWith (enter : Enter) (constructSuper : ClassId → Run Unit)
    (ctor : MemberFunction) (object : ObjectId) (args : List Value) : Run Value := do
  let o ← Run.look (·.objectAt object)
  if o.isConstructed ctor.owner then return Value.empty
  else
    -- marked before anything runs: what runs in between may come back to this class
    Run.happen (.constructorMarked object ctor.owner)
    runInitializer enter ctor object args
    let c ← Run.look (·.classAt ctor.owner)
    c.supers.forM constructSuper
    callMember enter ctor (some object) constructorName args

/-- Constructs a class of an object, where at most `depth` classes are nested. -/
def constructClass (enter : Enter) (object : ObjectId) :
    (depth : Nat) → ClassId → List Value → Run Unit
  | 0, _, _ => Run.exhaust
  | depth + 1, cls, args => do
      let o ← Run.look (·.objectAt object)
      if o.isConstructed cls then return ()
      else
        let c ← Run.look (·.classAt cls)
        match c.function? constructorName with
        | some ctor =>
            let _ ← runConstructorWith enter (constructClass enter object depth · []) ctor object
              args
        | none =>
            Run.happen (.constructorMarked object cls)
            c.supers.forM (constructClass enter object depth · [])

/-- Runs the constructor of a class unless it has begun for this object already. -/
def runConstructor (enter : Enter) (ctor : MemberFunction) (object : ObjectId)
    (args : List Value) : Run Value :=
  runConstructorWith enter (constructClass enter object ctor.owner.index · []) ctor object args

/-- Removes an object that may have been removed already. -/
def removeObject (object : ObjectId) : Run Unit := do
  let w ← Run.world
  if (w.objects.get? object).isSome then Run.happen (.objectRemoved object) else pure ()

/-- Creates an object of a class.  Arguments are for its own constructor, so
there must be one to take them.  An object whose construction fails is removed. -/
def createObject (enter : Enter) (cls : ClassId) (name : String) (args : List Value) :
    Run ObjectId := do
  let c ← Run.look (·.classAt cls)
  let w ← Run.world
  if (w.findObject? name).isSome then Run.fail (.objectExists name)
  else if !args.isEmpty && (c.function? constructorName).isNone then
    Run.fail (.usage (.noConstructorArguments c.name))
  else
    -- from here on the name is taken, until a failure gives it back
    let object := w.objects.nextId
    Run.happen (.objectCreated name cls)
    initializeVariables object c.heritage
    Run.happen (.constructionBegun object)
    let result ← Run.attempt (constructClass enter object (cls.index + 1) cls args)
    Run.happen (.constructionEnded object)
    match result with
    | .ok () => return object
    | .error e =>
        removeObject object
        Run.fail e

/-- Runs the destructors of the classes, in order, those that have not begun in
this deletion.  When one fails, none counts as begun any more. -/
def runDestructors (enter : Enter) (object : ObjectId) : List ClassId → Run Unit
  | [] => pure ()
  | cls :: rest => do
      let c ← Run.look (·.classAt cls)
      match c.function? destructorName with
      | none => runDestructors enter object rest
      | some dtor =>
          let o ← Run.look (·.objectAt object)
          if o.isDestructed cls then runDestructors enter object rest
          else
            Run.happen (.destructorMarked object cls)
            let result ← Run.attempt (callMember enter dtor (some object) destructorName [])
            match result with
            | .ok _ => runDestructors enter object rest
            | .error e =>
                -- the destructor may have deleted the object before it failed
                let _ ← Run.look (·.objectAt object)
                Run.happen (.destructorsForgotten object)
                Run.fail e

/-- Deletes an object, unless a destructor fails. -/
def deleteObject (enter : Enter) (object : ObjectId) : Run Unit := do
  let c ← Run.look (·.classOf object)
  Run.happen (.deletionBegun object)
  runDestructors enter object c.heritage
  removeObject object

end ObjectDispatch
