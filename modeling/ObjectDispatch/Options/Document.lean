import ObjectDispatch.Options

/-!
# Options documents

Options can be kept in a TOML document.  Every option is a top-level key with a
string, a truth value or a count, so a document that sets options is a sequence
of lines, each blank, a comment or one `key = value`; tables, dotted keys,
arrays, dates and fractions can only be mistakes here, and are refused like any
other malformed line.  A key may occur once, and keys that are no options are
refused.

## Main definitions

* `Document.settings` — the keys of a document with their values.
* `EngineOptions.ofText` — the options that a document sets, the others at their
  defaults.
* `EngineOptions.ofBytes` — the same from the bytes of a file.
-/

namespace ObjectDispatch

/-- Why no options were obtained. -/
inductive OptionsFault where
  /-- There is no file, or its bytes are not text. -/
  | unreadable : OptionsFault
  /-- The text does not set options. -/
  | malformed : OptionsFault
  deriving DecidableEq, Repr

namespace Document

/-- The value of a setting. -/
inductive Scalar where
  /-- A string. -/
  | text (s : String) : Scalar
  /-- A count. -/
  | count (n : Nat) : Scalar
  /-- A truth value. -/
  | truth (b : Bool) : Scalar
  deriving DecidableEq, Repr

/-! ### Characters -/

/-- The blanks within a line. -/
def isGap (c : Char) : Bool := c = ' ' || c = '\t'

/-- A character that may stand in comments and in text: a tab or anything that
is no control character. -/
def isTextChar (c : Char) : Bool :=
  c = '\t' || (decide (0x20 ≤ c.toNat) && c.toNat != 0x7F)

/-- A character of a key without quotes. -/
def isKeyChar (c : Char) : Bool := c.isAlphanum || c = '_' || c = '-'

/-- The value of a digit in the given base. -/
def digit? (base : Nat) (c : Char) : Option Nat :=
  let v :=
    if '0' ≤ c ∧ c ≤ '9' then some (c.toNat - '0'.toNat)
    else if 'a' ≤ c ∧ c ≤ 'f' then some (c.toNat - 'a'.toNat + 10)
    else if 'A' ≤ c ∧ c ≤ 'F' then some (c.toNat - 'A'.toNat + 10)
    else none
  v.filter (· < base)

/-! ### Line ends -/

/-- What follows a line end, which the end of the document is as well. -/
def afterLineEnd? : List Char → Option (List Char)
  | [] => some []
  | '\n' :: cs => some cs
  | '\r' :: '\n' :: cs => some cs
  | _ => none

/-- What follows the line, when only blanks and a comment are left on it. -/
def afterLine? (cs : List Char) : Option (List Char) :=
  match cs.dropWhile isGap with
  | '#' :: rest => afterLineEnd? (rest.dropWhile isTextChar)
  | rest => afterLineEnd? rest

/-- The text without the line end that it may start with. -/
def dropLineEnd : List Char → List Char
  | '\n' :: cs => cs
  | '\r' :: '\n' :: cs => cs
  | cs => cs

/-! ### Text -/

/-- Text that was read, and what follows it. -/
abbrev Reading := Option (List Char × List Char)

/-- One more character in front. -/
def Reading.push (c : Char) (r : Reading) : Reading := r.map fun p => (c :: p.1, p.2)

/-- The character with the code point that `n` hexadecimal digits give. -/
def codePoint? (n : Nat) (cs : List Char) : Option Char := do
  let digits ← (cs.take n).mapM (digit? 16)
  let v := digits.foldl (fun v d => 16 * v + d) 0
  if digits.length = n ∧ v.isValidChar then some (Char.ofNat v) else none

/-- What stands for a character after a backslash: the character, and how many
characters stand for it. -/
def escaped? : List Char → Option (Char × Nat)
  | 'b' :: _ => some (Char.ofNat 8, 1)
  | 't' :: _ => some ('\t', 1)
  | 'n' :: _ => some ('\n', 1)
  | 'f' :: _ => some (Char.ofNat 12, 1)
  | 'r' :: _ => some ('\r', 1)
  | '"' :: _ => some ('"', 1)
  | '\\' :: _ => some ('\\', 1)
  | 'u' :: cs => (codePoint? 4 cs).map (·, 5)
  | 'U' :: cs => (codePoint? 8 cs).map (·, 9)
  | _ => none

/-- The rest of a string in double quotes on one line.  The first `skip`
characters have been read already, as part of an escape. -/
def basic : (skip : Nat) → List Char → Reading
  | _, [] => none
  | k + 1, _ :: cs => basic k cs
  | 0, c :: cs =>
      if c = '"' then some ([], cs)
      else if c = '\\' then
        match escaped? cs with
        | some (x, k) => (basic k cs).push x
        | none => none
      else if isTextChar c then (basic 0 cs).push c
      else none

/-- How many characters of blanks and line ends the text starts with. -/
def blankCount : List Char → Nat
  | '\r' :: '\n' :: cs => blankCount cs + 2
  | c :: cs => if isGap c || c = '\n' then blankCount cs + 1 else 0
  | [] => 0

/-- The rest of a line after a backslash is blank, so that the string goes on at
the next character that is not. -/
def continuesBelow (cs : List Char) : Bool :=
  match cs.dropWhile isGap with
  | '\n' :: _ => true
  | '\r' :: '\n' :: _ => true
  | _ => false

/-- A run of at least three quotes ends a string of several lines; up to two
quotes before the last three belong to it. -/
def closing? (quote : Char) (cs : List Char) : Reading :=
  let run := (cs.takeWhile (· = quote)).length
  if 3 ≤ run then some (List.replicate (min (run - 3) 2) quote, cs.drop (min run 5)) else none

/-- The rest of a string in triple double quotes. -/
def basicLines : (skip : Nat) → List Char → Reading
  | _, [] => none
  | k + 1, _ :: cs => basicLines k cs
  | 0, c :: cs =>
      if c = '"' then
        match closing? '"' (c :: cs) with
        | some r => some r
        | none => (basicLines 0 cs).push c
      else if c = '\\' then
        match escaped? cs with
        | some (x, k) => (basicLines k cs).push x
        | none => if continuesBelow cs then basicLines (blankCount cs) cs else none
      else if c = '\n' then (basicLines 0 cs).push c
      else if c = '\r' then if cs.head? = some '\n' then basicLines 0 cs else none
      else if isTextChar c then (basicLines 0 cs).push c
      else none

/-- The rest of a string in single quotes on one line. -/
def literal : List Char → Reading
  | [] => none
  | c :: cs =>
      if c = '\'' then some ([], cs)
      else if isTextChar c then (literal cs).push c
      else none

/-- The rest of a string in triple single quotes. -/
def literalLines : List Char → Reading
  | [] => none
  | c :: cs =>
      if c = '\'' then
        match closing? '\'' (c :: cs) with
        | some r => some r
        | none => (literalLines cs).push c
      else if c = '\n' then (literalLines cs).push c
      else if c = '\r' then if cs.head? = some '\n' then literalLines cs else none
      else if isTextChar c then (literalLines cs).push c
      else none

/-! ### Numbers -/

/-- Every underscore stands between two digits; `afterDigit` tells whether a
digit comes before. -/
def underscoresSeparate : (afterDigit : Bool) → List Char → Bool
  | afterDigit, [] => afterDigit
  | afterDigit, c :: cs =>
      if c = '_' then afterDigit && underscoresSeparate false cs else underscoresSeparate true cs

/-- The digits of a number, with single underscores between digits, and what
follows them. -/
def digits (base : Nat) (cs : List Char) : Option (List Nat × List Char) :=
  let belongs := fun c => (digit? base c).isSome || c = '_'
  let run := cs.takeWhile belongs
  if underscoresSeparate false run then some (run.filterMap (digit? base), cs.dropWhile belongs)
  else none

/-- The number that digits denote, when it has at most 63 bits. -/
def number? (base : Nat) (ds : List Nat) : Option Nat :=
  let v := ds.foldl (fun v d => base * v + d) 0
  if v < 0x8000000000000000 then some v else none

/-- A number in the base that its first characters tell; a decimal number has no
leading zeros. -/
def unsigned? : List Char → Option (Nat × List Char)
  | '0' :: 'x' :: cs => do let (ds, rest) ← digits 16 cs; some (← number? 16 ds, rest)
  | '0' :: 'o' :: cs => do let (ds, rest) ← digits 8 cs; some (← number? 8 ds, rest)
  | '0' :: 'b' :: cs => do let (ds, rest) ← digits 2 cs; some (← number? 2 ds, rest)
  | '0' :: cs => some (0, cs)
  | cs => do let (ds, rest) ← digits 10 cs; some (← number? 10 ds, rest)

/-- A decimal number after a sign. -/
def decimal? : List Char → Option (Nat × List Char)
  | '0' :: cs => some (0, cs)
  | cs => do let (ds, rest) ← digits 10 cs; some (← number? 10 ds, rest)

/-- A count: a number that is not negative. -/
def count? : List Char → Option (Nat × List Char)
  | '+' :: cs => decimal? cs
  | '-' :: cs => (decimal? cs).filter (·.1 = 0)
  | cs => unsigned? cs

/-! ### Lines -/

/-- A value and what follows it. -/
def value? : List Char → Option (Scalar × List Char)
  | '"' :: '"' :: '"' :: cs =>
      (basicLines 0 (dropLineEnd cs)).map fun p => (.text (.ofList p.1), p.2)
  | '"' :: cs => (basic 0 cs).map fun p => (.text (.ofList p.1), p.2)
  | '\'' :: '\'' :: '\'' :: cs =>
      (literalLines (dropLineEnd cs)).map fun p => (.text (.ofList p.1), p.2)
  | '\'' :: cs => (literal cs).map fun p => (.text (.ofList p.1), p.2)
  | 't' :: 'r' :: 'u' :: 'e' :: cs => some (.truth true, cs)
  | 'f' :: 'a' :: 'l' :: 's' :: 'e' :: cs => some (.truth false, cs)
  | cs => (count? cs).map fun p => (.count p.1, p.2)

/-- A key and what follows it. -/
def key? : List Char → Reading
  | '"' :: cs => basic 0 cs
  | '\'' :: cs => literal cs
  | cs =>
      match cs.takeWhile isKeyChar with
      | [] => none
      | k => some (k, cs.dropWhile isKeyChar)

/-- One `key = value` and what follows its line. -/
def setting? (cs : List Char) : Option ((String × Scalar) × List Char) := do
  let (k, rest) ← key? cs
  match rest.dropWhile isGap with
  | '=' :: rest =>
      let (v, rest) ← value? (rest.dropWhile isGap)
      some ((.ofList k, v), ← afterLine? rest)
  | _ => none

/-- The settings on at most `n` lines. -/
def lines? : (n : Nat) → List Char → Option (List (String × Scalar))
  | 0, _ => none
  | n + 1, cs =>
      match cs.dropWhile isGap with
      | [] => some []
      | c :: rest =>
          if c = '#' || c = '\n' || c = '\r' then do lines? n (← afterLine? (c :: rest))
          else do
            let (s, rest) ← setting? (c :: rest)
            some (s :: (← lines? n rest))

/-- The settings of a document, in order.  A document has fewer lines than
characters, plus one, and may start with a byte order mark. -/
def settings (text : String) : Option (List (String × Scalar)) :=
  let cs := text.toList
  let cs := if cs.head? = some (Char.ofNat 0xFEFF) then cs.tail else cs
  lines? (cs.length + 1) cs

end Document

namespace EngineOptions

/-- The options with one of them set, if there is one of that name and type. -/
def set? (o : EngineOptions) (key : String) : Document.Scalar → Option EngineOptions
  | .text s =>
      if key = "undefined_marker" then some { o with undefinedMarker := s }
      else if key = "builtin_registration_prefix" then some { o with registrationStem := s }
      else if key = "options_variable" then some { o with optionsVariable := s }
      else if key = "hull_component" then some { o with hullComponent := s }
      else none
  | .count n => if key = "max_call_depth" then some { o with maxCallDepth := n } else none
  | .truth b => if key = "autoload" then some { o with autoload := b } else none

/-- The options that a list of settings makes of `o`. -/
def withSettings? (o : EngineOptions) (settings : List (String × Document.Scalar)) :
    Option EngineOptions :=
  if (settings.map Prod.fst).Nodup then settings.foldlM (fun o s => o.set? s.1 s.2) o else none

/-- The options that a document sets, the others at their defaults. -/
def ofText (text : String) : Except OptionsFault EngineOptions :=
  match (Document.settings text).bind (withSettings? {}) with
  | some o => .ok o
  | none => .error .malformed

/-- The options in a file with the given bytes, if there is such a file. -/
def ofBytes (bytes : Option ByteArray) : Except OptionsFault EngineOptions :=
  match bytes.bind String.fromUTF8? with
  | some text => ofText text
  | none => .error .unreadable

end EngineOptions

end ObjectDispatch
