import ObjectDispatch.Eval

/-!
# Sessions

A session is a sequence of expressions evaluated one after the other, outside any
frame, in a world that begins empty.  An error ends its own step and no more.

## Main definitions

* `Session.step` — one step.
* `Session.run` — all steps, and what is to be said about each.
-/

namespace ObjectDispatch

namespace Session

/-- What is to be said about a step. -/
structure StepReport where
  /-- How it ended. -/
  outcome : Outcome Value
  /-- What it wrote to the log, in order. -/
  log : List Value
  deriving Inhabited

/-- The value that an event writes to the log. -/
def written? : Event → Option Value
  | .logged v => some v
  | _ => none

/-- The values that events wrote to the log. -/
def logged (events : List Event) : List Value := events.filterMap written?

/-- Evaluates a step in a world, with at most `loads` nested calls of the class
loader at a time.  As many frames can be nested as the stack allows. -/
def step (loads : Nat) (w : World) (e : Expr) : Outcome Value × State :=
  evaluate loads w.stack.limit e [] { world := w }

/-- Evaluates steps one after the other. -/
def steps (loads : Nat) : World → List Expr → List StepReport
  | _, [] => []
  | w, e :: es =>
      let (outcome, s) := step loads w e
      { outcome := outcome, log := logged s.journal.reverse } :: steps loads s.world es

/-- The reports on the steps of a session with the given options. -/
def run (loads : Nat) (o : EngineOptions) (es : List Expr) : List StepReport :=
  steps loads (World.initial o) es

/-- How many calls of the class loader a session may nest where nothing else is
said: more than any machine has room for, so that only calls that never come to
an end can use them up. -/
def defaultLoads : Nat := 0x4000000000000000

end Session

end ObjectDispatch
