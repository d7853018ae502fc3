import ObjectDispatch.Class
import ObjectDispatch.Text.Unshown

/-!
# Members as text

One line of text for each function and each variable, for people who look into a
class.  Strings stand in double quotes there, with escapes for the characters
that do not show.

## Main definitions

* `shown` — a string in double quotes.
* `MemberFunction.text`, `Variable.text` — the lines.
-/

namespace ObjectDispatch

/-- A character inside double quotes. -/
def shownChar (c : Char) : List Char :=
  if c = '"' then ['\\', '"']
  else if c = '\\' then ['\\', '\\']
  else if c = '\n' then ['\\', 'n']
  else if c = '\r' then ['\\', 'r']
  else if c = '\t' then ['\\', 't']
  else if c = Char.ofNat 0 then ['\\', '0']
  else if isUnshown c then ['\\', 'u', '{'] ++ Nat.toDigits 16 c.toNat ++ ['}']
  else [c]

/-- A string in double quotes. -/
def shown (s : String) : String :=
  String.ofList ('"' :: (s.toList.flatMap shownChar ++ ['"']))

namespace Value

mutual

/-- A value with the kind of value it is. -/
def kindedText : Value → String
  | .str s => "Str(" ++ shown s ++ ")"
  | .int n => "Int(" ++ toString n ++ ")"
  | .list items => "List([" ++ ", ".intercalate (kindedTexts items) ++ "])"

/-- The values of a list, each with its kind. -/
def kindedTexts : List Value → List String
  | [] => []
  | v :: vs => v.kindedText :: kindedTexts vs

end

end Value

/-- A condition as a word. -/
def conditionText (b : Bool) : String := if b then "true" else "false"

/-- A value that may be missing. -/
def optionText : Option Value → String
  | none => "None"
  | some v => "Some(" ++ v.kindedText ++ ")"

/-- The word for a protection, as the lines of members write it. -/
def Protection.text : Protection → String
  | .pub => "Public"
  | .prot => "Protected"
  | .priv => "Private"

/-- The flags that are set, or that none is. -/
def FunctionFlags.text (f : FunctionFlags) : String :=
  match f.names with
  | [] => "FunctionFlags(0x0)"
  | names => "FunctionFlags(" ++ " | ".intercalate names ++ ")"

/-- What runs, in a word; expressions are not shown. -/
def Code.text : Code → String
  | .script _ => "User(..)"
  | .builtin .cget => "Builtin(Cget)"
  | .builtin .configure => "Builtin(Configure)"
  | .builtin .info => "Builtin(Info)"
  | .builtin .isa => "Builtin(Isa)"

/-- The line of a function. -/
def MemberFunction.text (f : MemberFunction) : String :=
  "MemberFunc \x7b full_name: " ++ shown f.fullName ++ ", protection: " ++ f.protection.text ++
    ", flags: " ++ f.flags.text ++ ", body: " ++ f.body.text ++ ", initializer: " ++
    conditionText f.initializer.isSome ++ " \x7d"

/-- The line of a variable. -/
def Variable.text (v : Variable) : String :=
  "Variable \x7b full_name: " ++ shown v.fullName ++ ", protection: " ++ v.protection.text ++
    ", init: " ++ optionText v.init ++ ", config: " ++ conditionText v.hook.isSome ++ " \x7d"

/-- The lines of the own functions and then of the own variables of a class. -/
def Class.memberTexts (c : Class) : List String :=
  c.functions.toList.map (·.text) ++ c.ownVariables.toList.map (·.text)

end ObjectDispatch
