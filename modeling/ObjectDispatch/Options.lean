/-!
# Options of an interpreter

The settings that hold for the whole life of an interpreter.

## Main definitions

* `EngineOptions` — the settings, with their defaults.
* `EngineOptions.registrationName` — under which name a builtin is registered.
-/

namespace ObjectDispatch

/-- The settings of an interpreter. -/
structure EngineOptions where
  /-- What stands for the value of a variable that is not set. -/
  undefinedMarker : String := "<undefined>"
  /-- How many frames there may be at a time. -/
  maxCallDepth : Nat := 100
  /-- Whether the class loader is asked for unknown classes. -/
  autoload : Bool := true
  /-- What the registration names of builtin methods begin with. -/
  registrationStem : String := "@strata-builtin-"
  /-- The variable of composite classes that stores options. -/
  optionsVariable : String := "strata_options"
  /-- The component of composite classes that calls are delegated to. -/
  hullComponent : String := "hull"
  deriving DecidableEq, Repr, Inhabited

/-- The name under which a builtin method is registered. -/
def EngineOptions.registrationName (o : EngineOptions) (builtin : String) : String :=
  o.registrationStem ++ builtin

end ObjectDispatch
