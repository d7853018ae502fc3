/-!
# Builtin methods

Every class answers `cget`, `configure`, `info` and `isa`, with the builtin
methods of this module unless its heritage defines them otherwise.

## Main definitions

* `Builtin` — the four methods.
* `Builtin.all` — their order of installation.
-/

namespace ObjectDispatch

/-- The methods that classes have without defining them. -/
inductive Builtin where
  /-- Reads an option. -/
  | cget : Builtin
  /-- Lists, reads and sets options. -/
  | configure : Builtin
  /-- Describes a class and its members. -/
  | info : Builtin
  /-- Asks for a class in the heritage. -/
  | isa : Builtin
  deriving DecidableEq, Repr, Inhabited

namespace Builtin

/-- The builtin methods in their order of installation. -/
def all : List Builtin := [.cget, .configure, .info, .isa]

/-- The member name of a builtin method. -/
def name : Builtin → String
  | .cget => "cget"
  | .configure => "configure"
  | .info => "info"
  | .isa => "isa"

/-- The arguments of a builtin method, as descriptions show them. -/
def usage : Builtin → String
  | .cget => "-option"
  | .configure => "?-option? ?value -option value...?"
  | .info => "option ?arg arg ...?"
  | .isa => "className"

end Builtin

end ObjectDispatch
