import ObjectDispatch.World

/-!
# Runs

Code that acts on the world is a run: it reads the world, lets events happen and
ends with a value or with an error.  A run that needs more nested loader calls
than it was granted ends in neither way, and no program can tell it from one
that goes on.

## Main definitions

* `Outcome` — how a run ends.
* `Run` — runs, with `pure` and `bind`.
* `Run.happen`, `Run.look`, `Run.fail`, `Run.attempt` — what runs are made of.

## Main results

* `Run.bind_apply` — a run goes on where the one before it ended with a value.
* `LawfulMonad Run`.
-/

namespace ObjectDispatch

/-- How a run ends. -/
inductive Outcome (α : Type) where
  /-- With a value. -/
  | value (a : α) : Outcome α
  /-- With an error. -/
  | failure (e : DispatchError) : Outcome α
  /-- Not at all: it needs more nested loader calls than it was granted. -/
  | exhausted : Outcome α
  deriving Inhabited

/-- What a run works on. -/
structure State where
  /-- The world as it is now. -/
  world : World
  /-- What has happened, the latest event first. -/
  journal : List Event := []
  deriving Inhabited

/-- The state after one more event. -/
def State.after (s : State) (e : Event) : State :=
  { world := s.world.after e, journal := e :: s.journal }

/-- A run: from a state, how it ends and the state at its end. -/
def Run (α : Type) : Type := State → Outcome α × State

namespace Run

variable {α β : Type}

/-- Goes on with `f` from where `r` ended with a value. -/
def andThen (r : Run α) (f : α → Run β) : Run β := fun s =>
  match r s with
  | (.value a, s) => f a s
  | (.failure e, s) => (.failure e, s)
  | (.exhausted, s) => (.exhausted, s)

instance : Monad Run where
  pure a := fun s => (.value a, s)
  bind := andThen

/-- A run goes on where the one before it ended with a value. -/
theorem bind_apply (r : Run α) (f : α → Run β) (s : State) :
    (r >>= f) s =
      match r s with
      | (.value a, s) => f a s
      | (.failure e, s) => (.failure e, s)
      | (.exhausted, s) => (.exhausted, s) := rfl

/-- Ending with a value changes nothing. -/
@[simp] theorem pure_apply (a : α) (s : State) : (pure a : Run α) s = (.value a, s) := rfl

/-- Ending with the value that `r` ends with is `r`. -/
theorem andThen_pure (r : Run α) : andThen r pure = r := by
  funext s
  unfold andThen
  cases h : r s with
  | mk o t => cases o <;> rfl

/-- Going on twice is going on with what goes on. -/
theorem andThen_assoc {γ : Type} (r : Run α) (f : α → Run β) (g : β → Run γ) :
    andThen (andThen r f) g = andThen r fun a => andThen (f a) g := by
  funext s
  unfold andThen
  cases h : r s with
  | mk o t => cases o <;> rfl

instance : LawfulMonad Run :=
  LawfulMonad.mk' Run (fun r => andThen_pure r) (fun _ _ => rfl) (fun r f g => andThen_assoc r f g)

/-- The world as it is now. -/
def world : Run World := fun s => (.value s.world, s)

/-- Lets an event happen. -/
def happen (e : Event) : Run Unit := fun s => (.value (), s.after e)

/-- Ends with an error. -/
def fail (e : DispatchError) : Run α := fun s => (.failure e, s)

/-- Does not end. -/
def exhaust : Run α := fun s => (.exhausted, s)

/-- Ends as an answer tells. -/
def answer : Except DispatchError α → Run α
  | .ok a => pure a
  | .error e => fail e

/-- Reads the world. -/
def look (f : World → Except DispatchError α) : Run α := fun s => answer (f s.world) s

/-- Runs `r` and goes on however it ended. -/
def attempt (r : Run α) : Run (Except DispatchError α) := fun s =>
  match r s with
  | (.value a, s) => (.value (.ok a), s)
  | (.failure e, s) => (.value (.error e), s)
  | (.exhausted, s) => (.exhausted, s)

/-! ### What the parts of a run do -/

@[simp] theorem world_apply (s : State) : world s = (.value s.world, s) := rfl

@[simp] theorem happen_apply (e : Event) (s : State) : happen e s = (.value (), s.after e) := rfl

@[simp] theorem fail_apply (e : DispatchError) (s : State) :
    (fail e : Run α) s = (.failure e, s) := rfl

@[simp] theorem exhaust_apply (s : State) : (exhaust : Run α) s = (.exhausted, s) := rfl

/-- Reading the world leaves the state as it is. -/
theorem look_apply (f : World → Except DispatchError α) (s : State) :
    look f s = (match f s.world with | .ok a => .value a | .error e => .failure e, s) := by
  unfold look
  cases f s.world <;> rfl

/-- A run goes on with what it has read of the world. -/
theorem look_bind_of_ok {g : World → Except DispatchError α} {f : α → Run β} {s : State} {a : α}
    (h : g s.world = .ok a) : (look g >>= f) s = f a s := by
  rw [bind_apply, look_apply, h]

/-- It ends where there is nothing to read. -/
theorem look_bind_of_error {g : World → Except DispatchError α} {f : α → Run β} {s : State}
    {e : DispatchError} (h : g s.world = .error e) : (look g >>= f) s = (.failure e, s) := by
  rw [bind_apply, look_apply, h]

/-- Attempting a run ends in the state in which the run ends. -/
theorem attempt_apply (r : Run α) (s : State) :
    attempt r s =
      match r s with
      | (.value a, s) => (.value (.ok a), s)
      | (.failure e, s) => (.value (.error e), s)
      | (.exhausted, s) => (.exhausted, s) := rfl

end Run

end ObjectDispatch
