import Mathlib.Data.List.Nodup
import ObjectDispatch.Class

/-!
# Names and their spellings

The spellings of a name become longer one by one, so no two of them are the same.

A class name is well formed when every component of it is non-empty and without a
colon.  In a class of such a name a member of such a name is told apart from every
other by its full name, and no shorter spelling of any member is a full name.

## Main definitions

* `Name.IsWord` — text that can be a component.
* `Class.WellNamed` — a class with well-formed names.

## Main results

* `Name.nodup_spellings` — **the spellings of a name are distinct.**
* `Class.memberName_inj` — a full name tells the class and the member.
* `Class.memberName_mem_spellings_iff` — a full name is a spelling of no
  other.
-/

namespace ObjectDispatch

namespace Name

/-! ### Lengths -/

theorem mem_suffixes_iff {α : Type} {s l : List α} : s ∈ suffixes l ↔ s ≠ [] ∧ s <:+ l := by
  induction l with
  | nil => simp [suffixes]
  | cons x xs ih =>
    rw [suffixes, List.mem_append, ih, List.mem_singleton, List.suffix_cons_iff]
    constructor
    · rintro (⟨hne, hs⟩ | rfl)
      · exact ⟨hne, Or.inr hs⟩
      · exact ⟨List.cons_ne_nil x xs, Or.inl rfl⟩
    · rintro ⟨hne, rfl | hs⟩
      · exact Or.inr rfl
      · exact Or.inl ⟨hne, hs⟩

/-- More components in front do not make a name shorter. -/
theorem length_intercalate_le {s l : List String} (h : s <:+ l) :
    ("::".intercalate s).length ≤ ("::".intercalate l).length := by
  obtain ⟨t, rfl⟩ := h
  by_cases hs : s = []
  · subst hs
    exact Nat.zero_le _
  · by_cases ht : t = []
    · subst ht
      exact Nat.le_refl _
    · rw [String.intercalate_append_of_ne_nil ht hs, String.length_append, String.length_append]
      omega

/-- One more component in front makes a name longer. -/
theorem length_intercalate_lt_cons (x : String) {s l : List String} (hs : s ≠ [])
    (h : s <:+ l) : ("::".intercalate s).length < ("::".intercalate (x :: l)).length := by
  have hl : l ≠ [] := by
    rintro rfl
    exact hs (List.suffix_nil.mp h)
  have hle := length_intercalate_le h
  have hmark : "::".length = 2 := rfl
  rw [String.intercalate_cons_of_ne_nil hl, String.length_append, String.length_append]
  omega

/-- The spellings of a name become longer. -/
theorem pairwise_length_spellings (n : String) :
    (spellings n).Pairwise fun a b => a.length < b.length := by
  have hsuffixes (l : List String) :
      ((suffixes l).map ("::".intercalate ·)).Pairwise fun a b => a.length < b.length := by
    induction l with
    | nil => exact .nil
    | cons x xs ih =>
      rw [suffixes, List.map_append, List.pairwise_append]
      refine ⟨ih, List.pairwise_singleton _ _, ?_⟩
      intro a ha b hb
      obtain ⟨s, hs, rfl⟩ := List.mem_map.mp ha
      rw [List.map_singleton, List.mem_singleton] at hb
      obtain ⟨hne, hs⟩ := mem_suffixes_iff.mp hs
      rw [hb]
      exact length_intercalate_lt_cons x hne hs
  unfold spellings
  rw [List.pairwise_append]
  refine ⟨hsuffixes _, List.pairwise_singleton _ _, ?_⟩
  intro a ha b hb
  obtain ⟨s, hs, rfl⟩ := List.mem_map.mp ha
  rw [List.mem_singleton] at hb
  have hle := length_intercalate_le (mem_suffixes_iff.mp hs).2
  have hmark : "::".length = 2 := rfl
  rw [hb, String.length_append]
  omega

/-- **The spellings of a name are distinct.** -/
theorem nodup_spellings (n : String) : (spellings n).Nodup := by
  refine (pairwise_length_spellings n).imp fun h => ?_
  rintro rfl
  exact Nat.lt_irrefl _ h

/-! ### Components -/

/-- Text that can be a component of a name: not empty and without a colon. -/
def IsWord (cs : List Char) : Prop := cs ≠ [] ∧ ':' ∉ cs

instance (cs : List Char) : Decidable (IsWord cs) := inferInstanceAs (Decidable (_ ∧ _))

/-- Text without a colon is one piece. -/
theorem pieces_of_not_mem {cs : List Char} (h : ':' ∉ cs) : pieces cs = [cs] := by
  induction cs with
  | nil => rfl
  | cons c cs ih =>
    rw [List.mem_cons, not_or] at h
    rw [pieces, ih h.2]
    · rfl
    · rintro _ rfl _
      exact h.1 rfl

/-- Text without a colon is the first piece before a mark. -/
theorem pieces_append_mark {cs : List Char} (h : ':' ∉ cs) (rest : List Char) :
    pieces (cs ++ ':' :: ':' :: rest) = cs :: pieces rest := by
  induction cs with
  | nil => rfl
  | cons c cs ih =>
    rw [List.mem_cons, not_or] at h
    rw [List.cons_append, pieces, ih h.2]
    · rfl
    · rintro _ rfl _
      exact h.1 rfl

/-- The texts with a mark before each. -/
def marked (ps : List (List Char)) : List Char := ps.flatMap (':' :: ':' :: ·)

/-- Texts without a colon are the pieces of the text in which each has a mark
before it, but for the first. -/
theorem pieces_append_marked {p : List Char} {ps : List (List Char)} (hp : ':' ∉ p)
    (hps : ∀ q ∈ ps, ':' ∉ q) : pieces (p ++ marked ps) = p :: ps := by
  induction ps generalizing p with
  | nil => rw [marked, List.flatMap_nil, List.append_nil, pieces_of_not_mem hp]
  | cons q ps ih =>
    have hrest := ih (hps q List.mem_cons_self) fun x hx => hps x (List.mem_cons_of_mem q hx)
    show pieces (p ++ ':' :: ':' :: (q ++ marked ps)) = p :: q :: ps
    rw [pieces_append_mark hp, hrest]

/-- A mark in front of texts with marks between them leaves each with a mark before
it. -/
theorem mark_append_intercalate {ps : List (List Char)} (hps : ps ≠ []) :
    [':', ':'] ++ [':', ':'].intercalate ps = marked ps := by
  induction ps with
  | nil => exact absurd rfl hps
  | cons p ps ih =>
    cases ps with
    | nil => simp [marked]
    | cons q ps =>
      rw [List.intercalate_cons_cons, List.append_assoc, ih (List.cons_ne_nil q ps)]
      simp [marked]

/-- An anchored name is its components with a mark before each, when they are
words. -/
theorem exists_words {n : String} (hanchored : isAnchored n)
    (hn : ∀ p ∈ (pieces n.toList).tail, IsWord p) :
    ∃ ps : List (List Char), (∀ p ∈ ps, IsWord p) ∧ n.toList = marked ps := by
  unfold isAnchored at hanchored
  split at hanchored
  · next cs hcs =>
    rw [hcs, pieces, List.tail_cons] at hn
    refine ⟨pieces cs, hn, ?_⟩
    rw [hcs, ← mark_append_intercalate (pieces_ne_nil cs), intercalate_pieces]
    rfl
  · cases hanchored

/-- Words with a mark before each are the components of what they make up. -/
theorem components_of_marked {n : String} {ps : List (List Char)} (hps : ∀ p ∈ ps, IsWord p)
    (hn : n.toList = marked ps) : components n = ps.map String.ofList := by
  have hpieces : pieces n.toList = [] :: ps := by
    rw [hn]
    exact pieces_append_marked List.not_mem_nil fun p hp => (hps p hp).2
  have hfilter : ([] :: ps).filter (!·.isEmpty) = ps := by
    rw [List.filter_cons_of_neg (by simp), List.filter_eq_self]
    intro p hp
    simpa using (hps p hp).1
  rw [components, hpieces, hfilter]

/-- Words can be read back from the text in which each has a mark before it. -/
theorem marked_inj {ps qs : List (List Char)} (hps : ∀ p ∈ ps, IsWord p)
    (hqs : ∀ q ∈ qs, IsWord q) (h : marked ps = marked qs) : ps = qs := by
  have hps := pieces_append_marked (p := []) List.not_mem_nil fun p hp => (hps p hp).2
  have hqs := pieces_append_marked (p := []) List.not_mem_nil fun q hq => (hqs q hq).2
  rw [h, hqs] at hps
  exact (List.cons.inj hps).2.symm

/-- The full name is a spelling, and no other spelling starts with a mark. -/
theorem mem_spellings_of_marked {n m : String} {ps qs : List (List Char)}
    (hps : ∀ p ∈ ps, IsWord p) (hn : n.toList = marked ps) (hne : ps ≠ [])
    (hqs : qs ≠ []) (hm : m.toList = marked qs) : m ∈ spellings n ↔ m = n := by
  have hcomponents := components_of_marked hps hn
  have hlast : "::" ++ "::".intercalate (components n) = n := by
    rw [← String.toList_inj, String.toList_append, String.toList_intercalate, hcomponents, hn,
      ← mark_append_intercalate hne]
    simp [Function.comp_def]
  unfold spellings
  rw [List.mem_append, List.mem_singleton, hlast]
  refine ⟨fun h => h.resolve_left ?_, Or.inr⟩
  -- a shorter spelling starts with a word
  intro hmem
  obtain ⟨s, hs, rfl⟩ := List.mem_map.mp hmem
  obtain ⟨hsne, hsuffix⟩ := mem_suffixes_iff.mp hs
  obtain ⟨w, ws, rfl⟩ := List.exists_cons_of_ne_nil hsne
  have hw : IsWord w.toList := by
    have hwmem : w ∈ ps.map String.ofList := hcomponents ▸ hsuffix.subset List.mem_cons_self
    obtain ⟨p, hp, rfl⟩ := List.mem_map.mp hwmem
    rw [String.toList_ofList]
    exact hps p hp
  obtain ⟨q, qs, rfl⟩ := List.exists_cons_of_ne_nil hqs
  obtain ⟨c, cs, hcs⟩ := List.exists_cons_of_ne_nil hw.1
  rw [String.toList_intercalate, List.map_cons, hcs, List.intercalate_cons_cons_left] at hm
  have hc : c = ':' := (List.cons.inj hm).1
  exact hw.2 (by rw [hcs, hc]; exact List.mem_cons_self)

end Name

namespace Class

open Name

/-- The components of the name of the class and the names of its variables are
words.  The hull and the options of a composite class are kept in variables. -/
structure WellNamed (c : Class) : Prop where
  components : ∀ p ∈ (pieces c.fullName.toList).tail, IsWord p
  varNames : ∀ v ∈ c.ownVariables.toList, IsWord v.name.toList

/-- The full name of a member is the components of the class and then its name,
each with a mark before it. -/
theorem toList_memberName {c : Class} {n : String} {ps : List (List Char)}
    (hc : c.fullName.toList = marked ps) :
    (c.memberName n).toList = marked (ps ++ [n.toList]) := by
  simp [memberName, member, String.toList_append, hc, marked]

section

variable {c d : Class} {m n : String}
variable (hc : ∀ p ∈ (pieces c.fullName.toList).tail, IsWord p)
variable (hd : ∀ p ∈ (pieces d.fullName.toList).tail, IsWord p)
variable (hca : isAnchored c.fullName) (hda : isAnchored d.fullName) (hn : IsWord n.toList)

include hc hd hca hda hn

/-- **A full name tells the class and the name of the member.** -/
theorem memberName_inj (hm : IsWord m.toList) (h : c.memberName m = d.memberName n) :
    c.fullName = d.fullName ∧ m = n := by
  obtain ⟨ps, hps, hcs⟩ := exists_words hca hc
  obtain ⟨qs, hqs, hds⟩ := exists_words hda hd
  have hwords {ws : List (List Char)} {k : String} (hws : ∀ w ∈ ws, IsWord w)
      (hk : IsWord k.toList) : ∀ w ∈ ws ++ [k.toList], IsWord w := by
    intro w hw
    rw [List.mem_append, List.mem_singleton] at hw
    rcases hw with hw | rfl
    · exact hws w hw
    · exact hk
  have htext := congrArg String.toList h
  rw [toList_memberName hcs, toList_memberName hds] at htext
  obtain ⟨hpq, hmn⟩ := List.append_inj' (marked_inj (hwords hps hm) (hwords hqs hn) htext) rfl
  refine ⟨?_, String.toList_inj.mp (List.cons.inj hmn).1⟩
  rw [← String.toList_inj, hcs, hds, hpq]

/-- **A full name is a spelling of no other.** -/
theorem memberName_mem_spellings_iff :
    c.memberName m ∈ spellings (d.memberName n) ↔ c.memberName m = d.memberName n := by
  obtain ⟨ps, -, hcs⟩ := exists_words hca hc
  obtain ⟨qs, hqs, hds⟩ := exists_words hda hd
  refine mem_spellings_of_marked ?_ (toList_memberName hds) (by simp) (by simp)
    (toList_memberName hcs)
  intro w hw
  rw [List.mem_append, List.mem_singleton] at hw
  rcases hw with hw | rfl
  · exact hqs w hw
  · exact hn

end

end Class

end ObjectDispatch
