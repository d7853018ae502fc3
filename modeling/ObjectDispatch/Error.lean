import ObjectDispatch.Class.Kind

/-!
# Errors of dispatch

Every error ends the call in which it arises and nothing more.  An error is its
cause; the wording is in one place, `DispatchError.message`.

## Main definitions

* `ScopeFault`, `UsageFault`, `CreationFault`, `ScriptFault` — the causes of the
  kinds of error that have several.
* `DispatchError` — the errors.
* `DispatchError.message` — their wording.
* `DispatchError.rootCause` — the error under the annotations of hooks.
-/

namespace ObjectDispatch

/-- Code runs outside the class or object that it needs. -/
inductive ScopeFault where
  /-- There is no frame. -/
  | noClass : ScopeFault
  /-- A variable is used where there is no frame. -/
  | noClassFor (var : String) : ScopeFault
  /-- A variable is used in a frame without an object. -/
  | noObjectFor (var : String) : ScopeFault
  /-- A method is called at class level. -/
  | instanceOnly (function : String) : ScopeFault
  /-- `chain` is used where there is no frame. -/
  | chainOutside : ScopeFault
  /-- `chain` leads to a constructor and there is no object to construct. -/
  | chainNeedsObject (function : String) : ScopeFault
  /-- Raised by a program in its own words. -/
  | said (text : String) : ScopeFault
  deriving DecidableEq, Repr, Inhabited

/-- The wording of a scope fault. -/
def ScopeFault.message : ScopeFault → String
  | .noClass => "namespace \"::\" is not a class namespace"
  | .noClassFor x => "can't access \"" ++ x ++ "\": not in a class context"
  | .noObjectFor x =>
      "can't access \"" ++ x ++ "\": cannot access object-specific info without an object context"
  | .instanceOnly f =>
      "cannot access object-specific info without an object context: \"" ++ f ++ "\""
  | .chainOutside => "cannot chain functions outside of a class context"
  | .chainNeedsObject f => "cannot chain to \"" ++ f ++ "\" without an object context"
  | .said text => text

/-- A call has the wrong number or form of arguments, or is one too many. -/
inductive UsageFault where
  /-- The limit on frames is reached. -/
  | tooDeep : UsageFault
  /-- A class without a constructor is given constructor arguments. -/
  | noConstructorArguments (cls : String) : UsageFault
  /-- `cget` without an object or with other than one argument. -/
  | cget : UsageFault
  /-- `configure` without an object, or with one argument that is no option. -/
  | configure : UsageFault
  /-- The last option of a list of pairs lacks its value. -/
  | missingValue (option : String) : UsageFault
  /-- `isa` without an object. -/
  | isaObject : UsageFault
  /-- `isa` with other than one argument. -/
  | isaArguments : UsageFault
  /-- `info` with no argument. -/
  | infoArguments : UsageFault
  /-- Too many arguments after a subcommand of `info`. -/
  | infoTopicArguments (topic : String) : UsageFault
  /-- No subcommand of `info`. -/
  | infoTopic (topic : String) : UsageFault
  /-- Raised by a program in its own words. -/
  | said (text : String) : UsageFault
  deriving DecidableEq, Repr, Inhabited

/-- The wording of a usage fault. -/
def UsageFault.message : UsageFault → String
  | .tooDeep => "too many nested evaluations (infinite loop?)"
  | .noConstructorArguments c => "wrong # args: should be \"" ++ c ++ " objName\""
  | .cget => "improper usage: should be \"object cget -option\""
  | .configure =>
      "improper usage: should be \"object configure ?-option? ?value -option value...?\""
  | .missingValue option => "value for \"" ++ option ++ "\" missing"
  | .isaObject => "improper usage: should be \"object isa className\""
  | .isaArguments => "wrong # args: should be \"object isa className\""
  | .infoArguments => "wrong # args: should be \"object info option ?arg arg ...?\""
  | .infoTopicArguments topic =>
      "wrong # args: should be \"object info " ++ topic ++ " ?name?\""
  | .infoTopic topic =>
      "bad option \"" ++ topic ++
        "\": must be class, component, function, heritage, inherit, or variable"
  | .said text => text

/-- A class or a member cannot be made. -/
inductive CreationFault where
  /-- The class name is taken. -/
  | classExists (cls : String) : CreationFault
  /-- Two inherited names mean the same class. -/
  | inheritsTwice (cls base : String) : CreationFault
  /-- The name of a function is qualified. -/
  | badFunctionName (name : String) : CreationFault
  /-- The name of a variable is qualified. -/
  | badVariableName (name : String) : CreationFault
  /-- The class has a function of this name. -/
  | functionTaken (name cls : String) : CreationFault
  /-- The class has a variable of this name. -/
  | variableTaken (name cls : String) : CreationFault
  /-- The class has a component of this name. -/
  | componentTaken (name cls : String) : CreationFault
  /-- Raised by a program in its own words. -/
  | said (text : String) : CreationFault
  deriving DecidableEq, Repr, Inhabited

/-- The wording of a creation fault. -/
def CreationFault.message : CreationFault → String
  | .classExists c => "class \"" ++ c ++ "\" already exists"
  | .inheritsTwice c base =>
      "class \"" ++ c ++ "\" inherits base class \"" ++ base ++ "\" more than once"
  | .badFunctionName n => "bad member name \"" ++ n ++ "\""
  | .badVariableName n => "bad variable name \"" ++ n ++ "\""
  | .functionTaken n c =>
      "member function \"" ++ n ++ "\" already defined in class \"" ++ c ++ "\""
  | .variableTaken n c =>
      "variable name \"" ++ n ++ "\" already defined in class \"" ++ c ++ "\""
  | .componentTaken n c => "component \"" ++ n ++ "\" already defined in class \"" ++ c ++ "\""
  | .said text => text

/-- A program goes wrong by itself. -/
inductive ScriptFault where
  /-- The object of the frame is meant and there is none. -/
  | noObject : ScriptFault
  /-- The running body has no such argument. -/
  | missingArgument (position : Nat) : ScriptFault
  /-- A number is needed. -/
  | notAnInteger (text : String) : ScriptFault
  /-- Raised by a program in its own words. -/
  | said (text : String) : ScriptFault
  deriving DecidableEq, Repr, Inhabited

/-- The wording of a script fault. -/
def ScriptFault.message : ScriptFault → String
  | .noObject => "no object"
  | .missingArgument i => "missing argument " ++ toString i
  | .notAnInteger text => "not an integer: " ++ text
  | .said text => text

/-- The errors of class definition and of dispatch. -/
inductive DispatchError where
  /-- Outside the class or object that is needed. -/
  | scope (fault : ScopeFault) : DispatchError
  /-- Wrong arguments, or one call too many. -/
  | usage (fault : UsageFault) : DispatchError
  /-- No public variable answers to the option. -/
  | unknownOption (option : String) : DispatchError
  /-- No class of this name, even after asking the loader. -/
  | unknownClass (name : String) : DispatchError
  /-- No function of this name; the public ones are offered. -/
  | unknownMethod (name : String) (candidates : List String) : DispatchError
  /-- The function may not be used from the calling frame. -/
  | protection (name : String) (level : Protection) : DispatchError
  /-- The class has no such member. -/
  | noSuchMember (name cls : String) : DispatchError
  /-- No class of the heritage has the component. -/
  | unknownComponent (name : String) : DispatchError
  /-- The variable is private to another class. -/
  | inaccessible (name : String) : DispatchError
  /-- The variable does not exist or is not set. -/
  | noSuchVariable (name : String) : DispatchError
  /-- The hook of a public variable failed, and the variable was restored. -/
  | hook (var : String) (source : DispatchError) : DispatchError
  /-- A class or a member cannot be made. -/
  | creation (fault : CreationFault) : DispatchError
  /-- The access name of an object is taken. -/
  | objectExists (name : String) : DispatchError
  /-- The object is not alive. -/
  | noSuchObject (name : String) : DispatchError
  /-- A program went wrong by itself. -/
  | script (fault : ScriptFault) : DispatchError
  deriving DecidableEq, Repr, Inhabited

namespace DispatchError

/-- The wording of an error. -/
def message : DispatchError → String
  | .scope f => f.message
  | .usage f => f.message
  | .unknownOption o => "unknown option \"" ++ o ++ "\""
  | .unknownClass n => "class \"" ++ n ++ "\" not found"
  | .unknownMethod n cs =>
      "bad option \"" ++ n ++ "\": should be one of...\n  " ++ "\n  ".intercalate cs
  | .protection n p => "can't access \"" ++ n ++ "\": " ++ p.word ++ " function"
  | .noSuchMember n c => "\"" ++ n ++ "\" isn't a member of class \"" ++ c ++ "\""
  | .unknownComponent n => "unknown component \"" ++ n ++ "\""
  | .inaccessible n => "can't access \"" ++ n ++ "\": private variable"
  | .noSuchVariable n => "can't read \"" ++ n ++ "\": no such variable"
  | .hook x e =>
      e.message ++ "\n    (error in configuration of public variable \"" ++ x ++ "\")"
  | .creation f => f.message
  | .objectExists n => "command \"" ++ n ++ "\" already exists in namespace"
  | .noSuchObject n => "object \"" ++ n ++ "\" not found"
  | .script f => f.message

/-- The word for the kind of an error. -/
def kind : DispatchError → String
  | .scope _ => "Context"
  | .usage _ => "Usage"
  | .unknownOption _ => "UnknownOption"
  | .unknownClass _ => "UnknownClass"
  | .unknownMethod _ _ => "UnknownMethod"
  | .protection _ _ => "Protection"
  | .noSuchMember _ _ => "NoSuchMember"
  | .unknownComponent _ => "UnknownComponent"
  | .inaccessible _ => "Inaccessible"
  | .noSuchVariable _ => "NoSuchVariable"
  | .hook _ _ => "Config"
  | .creation _ => "Creation"
  | .objectExists _ => "ObjectExists"
  | .noSuchObject _ => "NoSuchObject"
  | .script _ => "Script"

/-- Code ran outside the class or object that it needs. -/
def isScopeError : DispatchError → Bool
  | .scope _ => true
  | _ => false

/-- A call had the wrong arguments or was one too many. -/
def isUsageError : DispatchError → Bool
  | .usage _ => true
  | _ => false

/-- Something that was named was not found or may not be used. -/
def isResolutionError : DispatchError → Bool
  | .unknownOption _ | .unknownClass _ | .unknownMethod _ _ | .noSuchMember _ _
  | .unknownComponent _ | .protection _ _ | .inaccessible _ | .noSuchVariable _
  | .noSuchObject _ => true
  | _ => false

/-- The hook of a variable failed. -/
def isHookError : DispatchError → Bool
  | .hook _ _ => true
  | _ => false

/-- The error that the innermost hook raised, or the error itself. -/
def rootCause : DispatchError → DispatchError
  | .hook _ e => e.rootCause
  | e => e

/-- No hook annotation is left on a root cause. -/
theorem rootCause_not_isHookError : ∀ e : DispatchError, e.rootCause.isHookError = false
  | .hook _ e => by rw [rootCause]; exact rootCause_not_isHookError e
  | .scope _ | .usage _ | .unknownOption _ | .unknownClass _ | .unknownMethod _ _
  | .protection _ _ | .noSuchMember _ _ | .unknownComponent _ | .inaccessible _
  | .noSuchVariable _ | .creation _ | .objectExists _ | .noSuchObject _ | .script _ => rfl

/-- A kind of error that a program can raise in its own words. -/
inductive Raisable where
  | scope | usage | unknownOption | unknownClass | unknownComponent | inaccessible
  | noSuchVariable | creation | objectExists | noSuchObject | script
  deriving DecidableEq, Repr, Inhabited

/-- The error that a program raises with the words `text`. -/
def Raisable.raise (k : Raisable) (text : String) : DispatchError :=
  match k with
  | .scope => .scope (.said text)
  | .usage => .usage (.said text)
  | .unknownOption => .unknownOption text
  | .unknownClass => .unknownClass text
  | .unknownComponent => .unknownComponent text
  | .inaccessible => .inaccessible text
  | .noSuchVariable => .noSuchVariable text
  | .creation => .creation (.said text)
  | .objectExists => .objectExists text
  | .noSuchObject => .noSuchObject text
  | .script => .script (.said text)

end DispatchError

end ObjectDispatch
