import ObjectDispatch.Text.Blank

/-!
# Values and their text

A value is a string, a 64-bit integer or a list of values, and every value has
one text.  The text of a list joins the texts of its elements with single
spaces, each element quoted so that it stays one word: as it is when it holds
nothing special, in braces when its braces nest, with backslashes otherwise.

## Main definitions

* `Value` — strings, integers and lists.
* `Word.quote` — one element of a list text.
* `Value.text` — the text of a value.
-/

namespace ObjectDispatch

/-- What programs compute with. -/
inductive Value where
  /-- A string of Unicode characters. -/
  | str (s : String) : Value
  /-- A signed integer of 64 bits. -/
  | int (n : Int64) : Value
  /-- A list of values. -/
  | list (items : List Value) : Value
  deriving Inhabited

namespace Word

/-- The characters that end a word or change its reading. -/
def isSpecial (c : Char) : Bool :=
  isBlank c || ['{', '}', '"', ';', '$', '[', ']', '\\'].contains c

/-- The brace depth after reading `cs` from depth `d`, or `none` when a closing
brace has no partner. -/
def braceDepth : Nat → List Char → Option Nat
  | d, [] => some d
  | d, c :: cs =>
      if c = '{' then braceDepth (d + 1) cs
      else if c = '}' then
        match d with
        | 0 => none
        | d + 1 => braceDepth d cs
      else braceDepth d cs

/-- Every brace of `cs` has its partner. -/
def bracesNest (cs : List Char) : Bool :=
  braceDepth 0 cs = some 0

/-- One character of a word that is written with backslashes. -/
def escape (c : Char) : List Char :=
  if c = '\n' then ['\\', 'n']
  else if c = '\t' then ['\\', 't']
  else if isSpecial c then ['\\', c]
  else [c]

/-- The written form of one element of a list, from its text. -/
def quoteChars (cs : List Char) : List Char :=
  if cs.isEmpty then ['{', '}']
  else if !cs.any isSpecial then cs
  else if bracesNest cs && !cs.contains '\\' then '{' :: (cs ++ ['}'])
  else cs.flatMap escape

/-- `quoteChars` on strings. -/
def quote (s : String) : String :=
  String.ofList (quoteChars s.toList)

/-- The text of a list whose elements have the texts `texts`. -/
def join (texts : List String) : String :=
  " ".intercalate (texts.map quote)

end Word

namespace Value

mutual

/-- The text of a value: a string as it is, an integer in decimal, a list as
quoted words between single spaces. -/
def text : Value → String
  | .str s => s
  | .int n => toString n
  | .list items => Word.join (texts items)

/-- The texts of the values of a list. -/
def texts : List Value → List String
  | [] => []
  | v :: vs => v.text :: texts vs

end

/-- `texts` takes the text of each value. -/
theorem texts_eq_map : ∀ vs : List Value, texts vs = vs.map text
  | [] => rfl
  | v :: vs => by rw [texts, texts_eq_map vs, List.map_cons]

/-- The text of a list joins the texts of its elements. -/
@[simp] theorem text_list (vs : List Value) : (Value.list vs).text = Word.join (vs.map text) := by
  rw [text, texts_eq_map]

/-- The result of code that has nothing to say. -/
def empty : Value := .str ""

/-- The value has the empty text. -/
def isEmpty : Value → Bool
  | .str s => s.isEmpty
  | .int _ => false
  | .list items => items.isEmpty

/-- The string, if the value is one. -/
def string? : Value → Option String
  | .str s => some s
  | _ => none

/-- The integer, if the value is one. -/
def int? : Value → Option Int64
  | .int n => some n
  | _ => none

/-- The elements, if the value is a list. -/
def elements? : Value → Option (List Value)
  | .list items => some items
  | _ => none

/-- Truth values are the integers 1 and 0. -/
def ofBool (b : Bool) : Value := .int (if b then 1 else 0)

/-- Counts and numbers of things, as integers. -/
def ofNat (n : Nat) : Value := .int (Int64.ofNat n)

/-- A value that may be missing is a list of at most one value. -/
def ofOption (v : Option Value) : Value := .list v.toList

/-- A condition holds unless its text is empty or `0`. -/
def isTrue (v : Value) : Bool := v.text != "" && v.text != "0"

end Value

end ObjectDispatch
