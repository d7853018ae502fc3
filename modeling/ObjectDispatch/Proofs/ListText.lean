import Mathlib.Data.List.Forall2
import Mathlib.Data.String.Basic
import ObjectDispatch.Value

/-!
# Reading list text

The text of a list joins the quoted texts of its elements with single spaces.  It can
be read back word by word.  A word that begins with a brace ends at the partner of that
brace.  Any other word ends before the first space that has no backslash in front of it,
since neither a plain word nor one written with backslashes begins with a brace.

So a quoted word comes out again, whatever follows it, and no two lists of texts are
joined to the same text.

## Main definitions

* `Word.readBraced`, `Word.readBare` — a word, and what comes after it.
* `Word.split` — the words of a list text.

## Main results

* `Word.readWord_quoteChars` — a quoted word is read back.
* `Word.split_join` — **reading undoes joining.**
* `elements_of_list_text` — the text of a list tells the texts of its elements.
-/

namespace ObjectDispatch

namespace Word

/-! ### One word -/

/-- The character that is written as a backslash and `c`. -/
def unescape (c : Char) : Char :=
  if c = 'n' then '\n' else if c = 't' then '\t' else c

/-- A word that does not begin with a brace, and the text from the space on that ends
it. -/
def readBare : List Char → List Char × List Char
  | [] => ([], [])
  | ' ' :: cs => ([], ' ' :: cs)
  | '\\' :: c :: cs => (readBare cs).map (unescape c :: ·) id
  | c :: cs => (readBare cs).map (c :: ·) id

/-- What a pair of braces holds, and the text after it; the first brace has been read,
and `d` further ones are open. -/
def readBraced : Nat → List Char → List Char × List Char
  | _, [] => ([], [])
  | d, '{' :: cs => (readBraced (d + 1) cs).map ('{' :: ·) id
  | 0, '}' :: cs => ([], cs)
  | d + 1, '}' :: cs => (readBraced d cs).map ('}' :: ·) id
  | d, c :: cs => (readBraced d cs).map (c :: ·) id

/-- The first word of a list text, and the text after it. -/
def readWord : List Char → List Char × List Char
  | '{' :: cs => readBraced 0 cs
  | cs => readBare cs

theorem length_readBare_le (cs : List Char) : (readBare cs).2.length ≤ cs.length := by
  fun_induction readBare cs with
  | case1 => exact Nat.le_refl 0
  | case2 => exact Nat.le_refl _
  | _ =>
    simp only [Prod.map_snd, id_eq, List.length_cons]
    omega

theorem length_readBraced_le (d : Nat) (cs : List Char) :
    (readBraced d cs).2.length ≤ cs.length := by
  fun_induction readBraced d cs with
  | case1 => exact Nat.le_refl 0
  | case3 => exact Nat.le_succ _
  | _ =>
    simp only [Prod.map_snd, id_eq, List.length_cons]
    omega

/-- Nothing comes after a word that was not there before. -/
theorem length_readWord_le (cs : List Char) : (readWord cs).2.length ≤ cs.length := by
  unfold readWord
  split
  · next cs => exact Nat.le_succ_of_le (length_readBraced_le 0 cs)
  · exact length_readBare_le _

/-- Braces that nest are read up to the brace that follows them. -/
theorem readBraced_append {d : Nat} {cs : List Char} (h : braceDepth d cs = some 0)
    (rest : List Char) : readBraced d (cs ++ '}' :: rest) = (cs, rest) := by
  induction cs generalizing d with
  | nil =>
    cases h
    rfl
  | cons c cs ih =>
    unfold braceDepth at h
    rw [List.cons_append]
    split at h
    · next hopen =>
      subst hopen
      rw [readBraced, ih h, Prod.map_apply, id_eq]
    · next hopen =>
      split at h
      · next hclose =>
        subst hclose
        cases d with
        | zero => cases h
        | succ d => rw [readBraced, ih h, Prod.map_apply, id_eq]
      · next hclose =>
        rw [readBraced, ih h, Prod.map_apply, id_eq]
        · exact hopen
        · exact fun _ => hclose
        · exact fun _ _ => hclose

/-- What is not special is written as it is. -/
theorem escape_of_not_isSpecial {c : Char} (h : isSpecial c = false) : escape c = [c] := by
  have hline : c ≠ '\n' := by
    rintro rfl
    exact absurd h (by decide)
  have htab : c ≠ '\t' := by
    rintro rfl
    exact absurd h (by decide)
  rw [escape, if_neg hline, if_neg htab, if_neg (by simp [h])]

/-- What is special is written with a backslash, from which it can be told. -/
theorem exists_escape_eq {c : Char} (h : isSpecial c = true) :
    ∃ e, escape c = ['\\', e] ∧ unescape e = c := by
  by_cases hline : c = '\n'
  · exact ⟨'n', by rw [escape, if_pos hline], hline.symm⟩
  by_cases htab : c = '\t'
  · exact ⟨'t', by rw [escape, if_neg hline, if_pos htab], htab.symm⟩
  refine ⟨c, by rw [escape, if_neg hline, if_neg htab, if_pos h], ?_⟩
  -- the letters that stand for a line break and a tab are not special
  have hn : c ≠ 'n' := by
    rintro rfl
    exact absurd h (by decide)
  have ht : c ≠ 't' := by
    rintro rfl
    exact absurd h (by decide)
  rw [unescape, if_neg hn, if_neg ht]

/-- One character of a word is read back. -/
theorem readBare_escape_append (c : Char) (rest : List Char) :
    readBare (escape c ++ rest) = (readBare rest).map (c :: ·) id := by
  cases hc : isSpecial c with
  | true =>
    obtain ⟨e, hescape, rfl⟩ := exists_escape_eq hc
    rw [hescape]
    rfl
  | false =>
    rw [escape_of_not_isSpecial hc, List.singleton_append, readBare]
    -- neither a space nor a backslash is written as it is
    · rintro rfl
      exact absurd hc (by decide)
    · rintro _ _ rfl
      exact absurd hc (by decide)

/-- Characters that are written one by one are read back, up to a space or the end. -/
theorem readBare_flatMap_escape_append (cs : List Char) {rest : List Char}
    (hrest : ∀ c ∈ rest.head?, c = ' ') : readBare (cs.flatMap escape ++ rest) = (cs, rest) := by
  induction cs with
  | nil =>
    cases rest with
    | nil => rfl
    | cons c rest =>
      have hc : c = ' ' := hrest c rfl
      rw [List.flatMap_nil, List.nil_append, hc, readBare]
  | cons c cs ih =>
    rw [List.flatMap_cons, List.append_assoc, readBare_escape_append, ih, Prod.map_apply, id_eq]

/-- A word is written in braces that nest, or else character by character. -/
theorem quoteChars_cases (cs : List Char) :
    braceDepth 0 cs = some 0 ∧ quoteChars cs = '{' :: (cs ++ ['}']) ∨
      cs ≠ [] ∧ quoteChars cs = cs.flatMap escape := by
  unfold quoteChars
  split
  · next hempty =>
    rw [List.isEmpty_iff] at hempty
    subst hempty
    exact Or.inl ⟨rfl, rfl⟩
  · next hempty =>
    rw [List.isEmpty_iff] at hempty
    split
    · next hplain =>
      refine Or.inr ⟨hempty, ?_⟩
      have hescape : ∀ c ∈ cs, escape c = [c] := by
        intro c hc
        rw [Bool.not_eq_true', List.any_eq_false] at hplain
        exact escape_of_not_isSpecial (by simpa using hplain c hc)
      rw [List.flatMap_congr hescape, List.flatMap_singleton']
    · split
      · next hnest =>
        rw [Bool.and_eq_true, bracesNest, decide_eq_true_eq] at hnest
        exact Or.inl ⟨hnest.1, rfl⟩
      · exact Or.inr ⟨hempty, rfl⟩

/-- What is written character by character does not begin with a brace. -/
theorem readWord_flatMap_escape_append {cs : List Char} (hcs : cs ≠ []) (rest : List Char) :
    readWord (cs.flatMap escape ++ rest) = readBare (cs.flatMap escape ++ rest) := by
  obtain ⟨c, cs, rfl⟩ := List.exists_cons_of_ne_nil hcs
  rw [List.flatMap_cons, List.append_assoc]
  cases hc : isSpecial c with
  | true =>
    obtain ⟨e, hescape, -⟩ := exists_escape_eq hc
    rw [hescape]
    rfl
  | false =>
    rw [escape_of_not_isSpecial hc, List.singleton_append, readWord]
    rintro _ h
    cases h
    exact absurd hc (by decide)

/-- **A quoted word is read back**, whatever follows the space that ends it. -/
theorem readWord_quoteChars (cs : List Char) {rest : List Char}
    (hrest : ∀ c ∈ rest.head?, c = ' ') : readWord (quoteChars cs ++ rest) = (cs, rest) := by
  rcases quoteChars_cases cs with ⟨hnest, hquote⟩ | ⟨hcs, hquote⟩
  · rw [hquote, List.cons_append, List.append_assoc, List.singleton_append]
    exact readBraced_append hnest rest
  · rw [hquote, readWord_flatMap_escape_append hcs, readBare_flatMap_escape_append cs hrest]

theorem quoteChars_ne_nil (cs : List Char) : quoteChars cs ≠ [] := by
  intro hnil
  have hread : readWord (quoteChars cs ++ []) = (cs, []) := readWord_quoteChars cs nofun
  rw [hnil] at hread
  -- only the empty text has nothing to read, and that is written as a pair of braces
  cases hread
  cases hnil

/-! ### All words -/

/-- The words of a list text. -/
def readWords : List Char → List (List Char)
  | [] => []
  | c :: cs => (readWord (c :: cs)).1 :: readWords (readWord (c :: cs)).2.tail
termination_by cs => cs.length
decreasing_by
  have hle := length_readWord_le (c :: cs)
  rw [List.length_tail]
  simp only [List.length_cons] at hle ⊢
  omega

theorem readWords_of_ne_nil {cs : List Char} (h : cs ≠ []) :
    readWords cs = (readWord cs).1 :: readWords (readWord cs).2.tail := by
  obtain ⟨c, cs, rfl⟩ := List.exists_cons_of_ne_nil h
  rw [readWords]

/-- Words with single spaces between them are read back. -/
theorem readWords_intercalate (ws : List (List Char)) :
    readWords ([' '].intercalate (ws.map quoteChars)) = ws := by
  induction ws with
  | nil => rw [List.map_nil, List.intercalate_nil, readWords]
  | cons w ws ih =>
    cases ws with
    | nil =>
      have hread : readWord (quoteChars w ++ []) = (w, []) := readWord_quoteChars w nofun
      rw [List.append_nil] at hread
      rw [List.map_singleton, List.intercalate_singleton, readWords_of_ne_nil (quoteChars_ne_nil w),
        hread, List.tail_nil, readWords]
    | cons v ws =>
      rw [List.map_cons, List.map_cons, List.intercalate_cons_cons, List.append_assoc,
        List.singleton_append, ← List.map_cons]
      rw [readWords_of_ne_nil (List.append_ne_nil_of_left_ne_nil (quoteChars_ne_nil w) _),
        readWord_quoteChars w (by simp), List.tail_cons, ih]

/-- The words of a list text. -/
def split (s : String) : List String := (readWords s.toList).map String.ofList

/-- **Reading undoes joining.** -/
theorem split_join (texts : List String) : split (join texts) = texts := by
  have htext : (join texts).toList =
      [' '].intercalate ((texts.map String.toList).map quoteChars) := by
    rw [join, String.toList_intercalate, List.map_map, List.map_map]
    congr 1
    refine List.map_congr_left fun s _ => ?_
    exact String.toList_ofList
  rw [split, htext, readWords_intercalate, List.map_map]
  simp [Function.comp_def]

end Word

/-- **The text of a list tells the texts of its elements**, whatever characters they
hold: they can be read back from it, no other texts are joined to it, and the lists that
share it agree in length and in the text of each element. -/
theorem elements_of_list_text (xs ys : List Value) :
    Word.split (Value.list xs).text = xs.map Value.text ∧
    (∃! texts, Word.join texts = (Value.list xs).text) ∧
    ((Value.list xs).text = (Value.list ys).text ↔
      List.Forall₂ (fun x y => x.text = y.text) xs ys) := by
  have hread (vs : List Value) : Word.split (Value.list vs).text = vs.map Value.text := by
    rw [Value.text_list, Word.split_join]
  refine ⟨hread xs, ⟨xs.map Value.text, (Value.text_list xs).symm, ?_⟩, ?_⟩
  · intro texts htexts
    rw [← Word.split_join texts, htexts, hread]
  · have hpairs : List.Forall₂ (fun x y => x.text = y.text) xs ys ↔
        xs.map Value.text = ys.map Value.text := by
      rw [← List.forall₂_eq_eq_eq, List.forall₂_map_left_iff, List.forall₂_map_right_iff]
    rw [hpairs]
    constructor
    · intro h
      rw [← hread xs, h, hread]
    · intro h
      rw [Value.text_list, h, Value.text_list]

/-- The elements themselves are not told: a list and its text are written alike. -/
example : (Value.list [.list [.str "a", .str "b c"], .int 3]).text =
    (Value.list [.str "a \x7bb c\x7d", .str "3"]).text := by
  decide +kernel

end ObjectDispatch
