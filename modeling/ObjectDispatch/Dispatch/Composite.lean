import ObjectDispatch.Dispatch.Invoke

/-!
# Composite objects and collaborators

Objects of composite classes have components, slots that are bound to other
objects by their access names.  Options of objects that are not of a plain class
are handled by a widget delegate, where one is installed; classes that are not
known are asked of a class loader.  Both are expressions that programs install.

## Main definitions

* `bindComponent`, `World.boundTo` — components.
* `delegated` — a call handed to the widget delegate.
* `resolveClass` — a class by name, with the help of the loader.
-/

namespace ObjectDispatch

/-- The means to evaluate an expression with arguments, in the frame that is
innermost at the time. -/
abbrev Evaluate : Type := Expr → List Value → Run Value

/-! ### Components -/

/-- The first component called `n` among the classes. -/
def firstComponent (w : World) (n : String) : List ClassId → Except DispatchError Component
  | [] => .error (.unknownComponent n)
  | id :: ids => do
      match (← w.classAt id).component? n with
      | some k => return k
      | none => firstComponent w n ids

/-- The component that a name means in an object. -/
def World.component (w : World) (object : ObjectId) (n : String) :
    Except DispatchError Component := do
  firstComponent w n (← w.classOf object).heritage

/-- Binds a component of an object to another object. -/
def bindComponent (object : ObjectId) (n : String) (target : ObjectId) : Run Unit := do
  let k ← Run.look (·.component object n)
  let t ← Run.look (·.objectAt target)
  let _ ← Run.look (·.objectAt object)
  Run.happen (.assigned object k.store (.str t.name))

/-- The live object to which a component of an object is bound. -/
def World.boundTo (w : World) (object : ObjectId) (n : String) :
    Except DispatchError (Option ObjectId) := do
  let k ← w.component object n
  return ((← w.objectAt object).value? k.store).bind fun v => w.findObject? v.text

/-! ### Collaborators -/

/-- Hands a call of a builtin method to the widget delegate, if the class is not
plain and there is one.  The delegate is given the method and its arguments, and
the call is written to the log. -/
def delegated (evaluate : Evaluate) (c : Class) (object : ObjectId) (method : String)
    (args : List Value) : Run (Option Value) := do
  let w ← Run.world
  match if c.flags.plain then none else w.delegate with
  | none => return none
  | some code =>
      let forwarded := .str method :: args
      let o ← Run.look (·.objectAt object)
      Run.happen
        (.logged (.list [.str "delegate", .str c.fullName, .str o.name, .list forwarded]))
      return some (← evaluate code forwarded)

/-- Asks a class loader for a class, and writes that to the log. -/
def load (evaluate : Evaluate) (loader : ClassLoader) (name : String) : Run Unit := do
  Run.happen (.logged (.list [.str "autoload", .str name]))
  match loader.find? name with
  | none => pure ()
  | some code => let _ ← evaluate code [.str name]

/-- The class that a name means.  If there is none, the class loader is asked
once, where `autoload` and the options allow it. -/
def resolveClass (evaluate : Evaluate) (name : String) (autoload : Bool) : Run ClassId := do
  let w ← Run.world
  match w.findClass? name with
  | some id => return id
  | none =>
      match w.loader with
      | none => Run.fail (.unknownClass name)
      | some loader =>
          if !autoload || !w.options.autoload then Run.fail (.unknownClass name)
          else
            load evaluate loader name
            -- what counts is whether the class is there now, not what the loader answered
            match (← Run.world).findClass? name with
            | some id => return id
            | none => Run.fail (.unknownClass name)

end ObjectDispatch
