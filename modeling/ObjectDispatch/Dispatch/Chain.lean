import ObjectDispatch.Dispatch.Lifecycle

/-!
# Chaining

Running code can go on to the next more general implementation of the member it
belongs to: the function of the same simple name in the first class that defines
one, further along the heritage of the object's class than the class whose code
is running.  Where there is none, chaining does nothing.

## Main definitions

* `chainTarget` — the function that chaining runs.
* `chain` — chaining.
-/

namespace ObjectDispatch

/-- The first own function called `n` among the classes. -/
def firstDefined (w : World) (n : String) :
    List ClassId → Except DispatchError (Option MemberFunction)
  | [] => .ok none
  | id :: ids => do
      match (← w.classAt id).function? n with
      | some f => return some f
      | none => firstDefined w n ids

/-- The simple name that the member of a frame is chained by: an initializer
chains as its constructor. -/
def chainName (member : String) : String :=
  if Name.simple member = initializerName then constructorName else Name.simple member

/-- The function that chaining runs from the innermost frame.  Hooks and
expressions evaluated in a scope belong to no member and chain to nothing. -/
def chainTarget (w : World) : Except DispatchError (Option MemberFunction) :=
  match w.stack.current? with
  | none => .error (.scope .chainOutside)
  | some frame =>
      if frame.kind = .hook ∨ frame.kind = .eval then .ok none
      else
        match frame.member with
        | none => .ok none
        | some member => do
            let c ← w.subjectClass frame.scope frame.object
            match (Walk.start c.heritage).skipPast frame.scope with
            | (false, _) => return none
            | (true, walk) => firstDefined w (chainName member) walk.ahead

/-- Runs the next more general implementation of the running member.

A constructor runs for the object under construction, the innermost one, and not
a second time; nor does a destructor that has begun in this deletion. -/
def chain (enter : Enter) (args : List Value) : Run Value := do
  Run.happen .chained
  match ← Run.look chainTarget with
  | none => return Value.empty
  | some target =>
      let (_, object) ← Run.look (·.context)
      if target.flags.isConstructor then
        -- the object under construction is meant, even where the frame has another one
        match (← Run.world).building.head?.or object with
        | none => Run.fail (.scope (.chainNeedsObject target.fullName))
        | some o => runConstructor enter target o args
      else
        let onward := callMember enter target (if target.flags.isCommon then none else object)
          target.fullName args
        match object with
        | some o =>
            if target.flags.isDestructor then
              if (← Run.look (·.objectAt o)).isDestructed target.owner then return Value.empty
              else
                Run.happen (.destructorMarked o target.owner)
                onward
            else onward
        | none => onward

end ObjectDispatch
