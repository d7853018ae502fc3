import ObjectDispatch.Class.Definition
import ObjectDispatch.Frame
import ObjectDispatch.Object

/-!
# The world of an interpreter

Everything that running code can see or change: the options, the classes, the
live objects, the frames, the objects that are being constructed, the class
loader and the widget delegate.

The world changes only by events.  Each event has one effect, given by
`World.after`, and the events of a run are kept in order, so every moment of the
run can be had again by letting the events up to it happen to the world at its
beginning.

## Main definitions

* `World` — the state of an interpreter.
* `Event`, `World.after` — what can happen, and what it changes.
* `World.replay` — the world after a sequence of events.
-/

namespace ObjectDispatch

/-- What defines classes on demand: an expression for each name it knows. -/
abbrev ClassLoader := NameMap Expr

/-- The state of an interpreter. -/
structure World where
  /-- The settings. -/
  options : EngineOptions
  /-- The classes. -/
  registry : Registry := {}
  /-- The live objects. -/
  objects : ObjectTable := {}
  /-- The frames. -/
  stack : CallStack
  /-- The objects under construction, innermost first. -/
  building : List ObjectId := []
  /-- What is asked for unknown classes. -/
  loader : Option ClassLoader := none
  /-- What handles the options of objects that are not of a plain class. -/
  delegate : Option Expr := none
  deriving Inhabited

/-- The world before anything has happened. -/
def World.initial (o : EngineOptions) : World :=
  { options := o, stack := .empty o.maxCallDepth }

/-- What happens in a run. -/
inductive Event where
  /-- A frame is entered to run something. -/
  | entered (f : Frame) (a : Activity) : Event
  /-- The innermost frame is left, with the error that ended it, if one did. -/
  | left (failure : Option DispatchError) : Event
  /-- A frame is refused because the stack is full. -/
  | refused (f : Frame) (a : Activity) : Event
  /-- `chain` is evaluated. -/
  | chained : Event
  /-- An object begins to be constructed. -/
  | constructionBegun (o : ObjectId) : Event
  /-- The innermost construction ends. -/
  | constructionEnded (o : ObjectId) : Event
  /-- An object begins to be deleted. -/
  | deletionBegun (o : ObjectId) : Event
  /-- A class is registered. -/
  | classRegistered (c : Class) : Event
  /-- An object comes to life. -/
  | objectCreated (name : String) (cls : ClassId) : Event
  /-- An object ceases to live. -/
  | objectRemoved (o : ObjectId) : Event
  /-- A variable is set. -/
  | assigned (o : ObjectId) (var : String) (v : Value) : Event
  /-- A variable is unset. -/
  | cleared (o : ObjectId) (var : String) : Event
  /-- The constructor of a class begins to count for an object. -/
  | constructorMarked (o : ObjectId) (c : ClassId) : Event
  /-- The destructor of a class begins to count for an object. -/
  | destructorMarked (o : ObjectId) (c : ClassId) : Event
  /-- No destructor counts for an object any more. -/
  | destructorsForgotten (o : ObjectId) : Event
  /-- A class loader is installed. -/
  | loaderInstalled (l : ClassLoader) : Event
  /-- A widget delegate is installed. -/
  | delegateInstalled (e : Expr) : Event
  /-- A value is written to the log. -/
  | logged (v : Value) : Event
  deriving Inhabited

namespace World

/-- The world after an event. -/
def after (w : World) : Event → World
  | .entered f _ => { w with stack := w.stack.entered f }
  | .left _ => { w with stack := w.stack.pop }
  | .refused _ _ | .chained | .deletionBegun _ | .logged _ => w
  | .constructionBegun o => { w with building := o :: w.building }
  | .constructionEnded _ => { w with building := w.building.tail }
  | .classRegistered c => { w with registry := w.registry.register c }
  | .objectCreated name cls => { w with objects := w.objects.create name cls }
  | .objectRemoved o => { w with objects := w.objects.remove o }
  | .assigned o x v => { w with objects := w.objects.update o (·.set x v) }
  | .cleared o x => { w with objects := w.objects.update o (·.unset x) }
  | .constructorMarked o c => { w with objects := w.objects.update o (·.markConstructed c) }
  | .destructorMarked o c => { w with objects := w.objects.update o (·.markDestructed c) }
  | .destructorsForgotten o => { w with objects := w.objects.update o (·.forgetDestructed) }
  | .loaderInstalled l => { w with loader := some l }
  | .delegateInstalled e => { w with delegate := some e }

/-- The world after a sequence of events, the first of them happening first. -/
def replay (w : World) (events : List Event) : World := events.foldl after w

/-- Sequences of events follow each other. -/
theorem replay_append (w : World) (es fs : List Event) :
    w.replay (es ++ fs) = (w.replay es).replay fs := List.foldl_append

/-! ### Looking around -/

/-- The class with a number. -/
def classAt (w : World) (id : ClassId) : Except DispatchError Class :=
  match w.registry.get? id with
  | some c => .ok c
  | none => .error (.unknownClass id.text)

/-- The class that a name means. -/
def findClass? (w : World) (name : String) : Option ClassId := w.registry.lookup? name

/-- The classes with the given numbers. -/
def classesAt (w : World) (ids : List ClassId) : Except DispatchError (List Class) :=
  ids.mapM w.classAt

/-- The object with a number. -/
def objectAt (w : World) (id : ObjectId) : Except DispatchError Object :=
  match w.objects.get? id with
  | some o => .ok o
  | none => .error (.noSuchObject id.text)

/-- The object that a name means. -/
def findObject? (w : World) (name : String) : Option ObjectId := w.objects.find? name

/-- The class of an object. -/
def classOf (w : World) (id : ObjectId) : Except DispatchError Class := do
  w.classAt (← w.objectAt id).cls

/-- Whether a class is in the heritage of the class of an object. -/
def objectIsA (w : World) (id : ObjectId) (c : ClassId) : Except DispatchError Bool := do
  return (← w.classOf id).heritage.contains c

/-- The class and the object of the innermost frame. -/
def context (w : World) : Except DispatchError (ClassId × Option ObjectId) :=
  match w.stack.current? with
  | some f => .ok (f.scope, f.object)
  | none => .error (.scope .noClass)

/-- The class that code is about: the class of its object or, without an object,
the class in whose scope it runs. -/
def subjectClass (w : World) (scope : ClassId) (object : Option ObjectId) :
    Except DispatchError Class :=
  match object with
  | some o => w.classOf o
  | none => w.classAt scope

/-! ### Variables in scope -/

/-- The variable that a name means to the running code, and the object that
stores it: a private variable of another class is not for it, and neither is any
variable when there is no object. -/
def scopedVariable (w : World) (name : String) : Except DispatchError (ObjectId × Variable) :=
  match w.stack.current? with
  | none => .error (.scope (.noClassFor name))
  | some frame => do
      let c ← w.classAt frame.scope
      match c.resolveVar? name with
      | none => .error (.noSuchVariable name)
      | some entry =>
          if !entry.accessible then .error (.inaccessible name)
          else
            match frame.object with
            | none => .error (.scope (.noObjectFor name))
            | some o => .ok (o, entry.var)

/-- The value of the variable that a name means to the running code. -/
def getVariable (w : World) (name : String) : Except DispatchError Value := do
  let (o, v) ← w.scopedVariable name
  match (← w.objectAt o).value? v.fullName with
  | some x => .ok x
  | none => .error (.noSuchVariable name)

end World

end ObjectDispatch
