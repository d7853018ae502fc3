/-!
# Qualified names

A class name such as `::ui::Button` and a member name such as
`::ui::Button::color` are sequences of components between `::` marks.  Only the
mark of two colons separates: a single colon is an ordinary character, and empty
components do not count.

## Main definitions

* `Name.components n` — the components of `n`.
* `Name.simple n` — what follows the last mark.
* `Name.spellings n` — the names by which the member with the full name `n` can
  be addressed, shortest first.
* `Name.member cls n` — the full name of member `n` of class `cls`.

## Main results

* `Name.intercalate_pieces` — splitting at the marks loses nothing.
* `Name.isAnchored_anchor`, `Name.anchor_anchor` — anchoring a name.
-/

namespace ObjectDispatch

namespace Name

/-- The pieces of `cs` between marks, the marks read from the left. -/
def pieces : List Char → List (List Char)
  | [] => [[]]
  | ':' :: ':' :: cs => [] :: pieces cs
  | c :: cs => (pieces cs).modifyHead (c :: ·)

/-- There is at least one piece. -/
theorem pieces_ne_nil (cs : List Char) : pieces cs ≠ [] := by
  fun_induction pieces cs with
  | case1 => simp
  | case2 => simp
  | case3 c cs _ ih =>
    cases h : pieces cs with
    | nil => exact absurd h ih
    | cons p ps => simp

/-- A character in front of the first piece comes out in front. -/
theorem intercalate_modifyHead (sep : List Char) (c : Char) {ps : List (List Char)} (h : ps ≠ []) :
    sep.intercalate (ps.modifyHead (c :: ·)) = c :: sep.intercalate ps := by
  match ps, h with
  | [p], _ => simp [List.intercalate]
  | p :: q :: ps, _ => simp [List.intercalate]

/-- The pieces with marks between them are the text again: nothing is lost. -/
theorem intercalate_pieces (cs : List Char) : [':', ':'].intercalate (pieces cs) = cs := by
  fun_induction pieces cs with
  | case1 => rfl
  | case2 cs ih =>
    -- a mark is read: an empty piece comes before the others
    obtain ⟨p, ps, hps⟩ := List.exists_cons_of_ne_nil (pieces_ne_nil cs)
    rw [hps] at ih ⊢
    simpa [List.intercalate] using ih
  | case3 c cs _ ih => rw [intercalate_modifyHead _ _ (pieces_ne_nil cs), ih]

/-- The components of a name: its pieces without the empty ones. -/
def components (n : String) : List String :=
  ((pieces n.toList).filter (!·.isEmpty)).map String.ofList

/-- What follows the last mark of `cs`, if there is a mark. -/
def afterLastMark? : List Char → Option (List Char)
  | [] => none
  | c :: cs =>
      match afterLastMark? cs with
      | some rest => some rest
      | none =>
          match c, cs with
          | ':', ':' :: rest => some rest
          | _, _ => none

/-- The simple name: what follows the last mark, or all of it. -/
def simple (n : String) : String :=
  String.ofList ((afterLastMark? n.toList).getD n.toList)

/-- The name holds a mark. -/
def isQualified (n : String) : Bool :=
  (afterLastMark? n.toList).isSome

/-- The name starts with a mark. -/
def isAnchored (n : String) : Bool :=
  match n.toList with
  | ':' :: ':' :: _ => true
  | _ => false

/-- The name read from the global namespace. -/
def anchor (n : String) : String :=
  if isAnchored n then n else "::" ++ n

/-- Text without a mark is its own simple name. -/
theorem simple_of_not_isQualified {n : String} (h : isQualified n = false) : simple n = n := by
  have hnone : afterLastMark? n.toList = none := by simpa [isQualified] using h
  simp [simple, hnone]

/-- An anchored name starts with a mark. -/
theorem isAnchored_anchor (n : String) : isAnchored (anchor n) = true := by
  unfold anchor
  split
  · assumption
  · simp [isAnchored, String.toList_append]

/-- Anchoring twice is anchoring once. -/
theorem anchor_anchor (n : String) : anchor (anchor n) = anchor n := by
  rw [anchor, if_pos (isAnchored_anchor n)]

/-- The full name of member `n` of the class with full name `cls`. -/
def member (cls n : String) : String :=
  cls ++ "::" ++ n

/-- The non-empty final segments of a list, shortest first. -/
def suffixes {α : Type} : List α → List (List α)
  | [] => []
  | x :: xs => suffixes xs ++ [x :: xs]

/-- Every name by which the member with full name `n` can be addressed, least
qualified first: each final segment of its components, and last the anchored
name of all of them. -/
def spellings (n : String) : List String :=
  (suffixes (components n)).map ("::".intercalate ·) ++ ["::" ++ "::".intercalate (components n)]

end Name

end ObjectDispatch
