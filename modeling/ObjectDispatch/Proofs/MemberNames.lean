import ObjectDispatch.Proofs.Acceptance
import ObjectDispatch.Proofs.Resolution

/-!
# Names that are not made of words

A definition may use colons in its names as it likes, as long as the names of its members
hold no mark.  The full name of a member is then put together from two texts with a mark
between them, and taken apart again at the marks that are read from the left, where empty
pieces do not count.

Some of it is safe whatever the names are.  Every spelling of a name has the same last
component, because the pieces of a text are read again when they are put together anew.
The name of a member is that component, unless the name is empty or the class name ends
with a colon of its own, which then begins the mark.

## Main definitions

* `Name.IsClosed` — text behind which a mark is read as one.

## Main results

* `Name.getLast?_components_of_mem_spellings` — **all spellings of a name end with the same
  component.**
* `Name.mem_spellings_member_iff` — the unqualified spelling of a member.
* `Registry.Built.function_cases`, `Registry.Built.isQualified_variable` — the names of the
  members of a class.
-/

namespace ObjectDispatch

namespace Name

/-! ### Pieces put together anew -/

/-- The text does not end with a colon, so a mark behind it is read as one. -/
def IsClosed (cs : List Char) : Prop := cs.getLast? ≠ some ':'

instance (cs : List Char) : Decidable (IsClosed cs) := inferInstanceAs (Decidable (_ ≠ _))

theorem isClosed_nil : IsClosed [] := by decide

/-- The first piece stands in front. -/
theorem exists_prefix_piece (cs : List Char) : ∃ p ps, pieces cs = p :: ps ∧ p <+: cs := by
  obtain ⟨p, ps, hps⟩ := List.exists_cons_of_ne_nil (pieces_ne_nil cs)
  have htext := intercalate_pieces cs
  rw [hps] at htext
  refine ⟨p, ps, hps, ?_⟩
  cases ps with
  | nil =>
    rw [List.intercalate_singleton] at htext
    exact ⟨[], by rw [List.append_nil, htext]⟩
  | cons q qs =>
    rw [List.intercalate_cons_cons, List.append_assoc] at htext
    exact ⟨_, htext⟩

/-- A character that begins no mark is put in front of the first piece. -/
theorem pieces_cons {c : Char} {cs : List Char} (hmark : ¬ [':', ':'] <+: c :: cs) :
    pieces (c :: cs) = (pieces cs).modifyHead (c :: ·) := by
  rw [pieces]
  rintro ds rfl rfl
  exact hmark ⟨ds, rfl⟩

/-- A mark behind closed pieces is read as one. -/
theorem pieces_append_mark_of_isClosed {cs : List Char} (h : ∀ p ∈ pieces cs, IsClosed p)
    (rest : List Char) : pieces (cs ++ ':' :: ':' :: rest) = pieces cs ++ pieces rest := by
  fun_induction pieces cs with
  | case1 => rfl
  | case2 cs ih =>
    show [] :: pieces (cs ++ ':' :: ':' :: rest) = _
    rw [ih fun p hp => h p (List.mem_cons_of_mem _ hp), List.cons_append]
  | case3 c cs hmark ih =>
    obtain ⟨p, ps, hps, hprefix⟩ := exists_prefix_piece cs
    rw [hps, List.modifyHead_cons, List.forall_mem_cons] at h
    have hclosed : ∀ q ∈ pieces cs, IsClosed q := by
      rw [hps, List.forall_mem_cons]
      refine ⟨?_, h.2⟩
      cases p with
      | nil => exact isClosed_nil
      | cons d p => exact h.1
    have hstart : ¬ [':', ':'] <+: c :: (cs ++ ':' :: ':' :: rest) := by
      rintro ⟨ds, hds⟩
      cases cs with
      | nil =>
        -- the colon is a piece that is not closed
        cases hds
        rw [List.prefix_nil.mp hprefix] at h
        exact h.1 rfl
      | cons d cs =>
        cases hds
        exact hmark _ rfl rfl
    rw [List.cons_append, pieces_cons hstart, ih hclosed, hps]
    rfl

/-- A piece is read as one piece. -/
theorem pieces_of_mem_pieces {cs : List Char} : ∀ p ∈ pieces cs, pieces p = [p] := by
  fun_induction pieces cs with
  | case1 => simp [pieces]
  | case2 cs ih => exact List.forall_mem_cons.mpr ⟨rfl, ih⟩
  | case3 c cs hmark ih =>
    obtain ⟨p, ps, hps, es, hes⟩ := exists_prefix_piece cs
    rw [hps, List.forall_mem_cons] at ih
    rw [hps, List.modifyHead_cons, List.forall_mem_cons]
    refine ⟨?_, ih.2⟩
    rw [pieces_cons, ih.1, List.modifyHead_cons]
    -- a mark that begins the piece would begin the text
    rintro ⟨ds, hds⟩
    cases hds
    exact hmark _ rfl hes.symm

/-- Only the last piece can end with a colon. -/
theorem pairwise_isClosed_pieces (cs : List Char) :
    (pieces cs).Pairwise fun p _ => IsClosed p := by
  fun_induction pieces cs with
  | case1 => exact List.pairwise_singleton _ _
  | case2 cs ih => exact List.pairwise_cons.mpr ⟨fun _ _ => isClosed_nil, ih⟩
  | case3 c cs hmark ih =>
    have htext := intercalate_pieces cs
    obtain ⟨p, ps, hps⟩ := List.exists_cons_of_ne_nil (pieces_ne_nil cs)
    rw [hps] at ih htext
    rw [hps, List.modifyHead_cons]
    rw [List.pairwise_cons] at ih ⊢
    refine ⟨fun q hq => ?_, ih.2⟩
    cases p with
    | cons d p => exact ih.1 q hq
    | nil =>
      -- a mark follows, so the character is no colon
      obtain ⟨r, rs, rfl⟩ := List.exists_cons_of_ne_nil (List.ne_nil_of_mem hq)
      rw [List.intercalate_cons_cons, List.nil_append] at htext
      intro hlast
      cases hlast
      exact hmark _ rfl htext.symm

/-- **Pieces that are put together anew are read again.** -/
theorem pieces_intercalate {ps : List (List Char)} (hne : ps ≠ [])
    (hpieces : ∀ p ∈ ps, pieces p = [p]) (hclosed : ps.Pairwise fun p _ => IsClosed p) :
    pieces ([':', ':'].intercalate ps) = ps := by
  induction ps with
  | nil => exact absurd rfl hne
  | cons p ps ih =>
    rw [List.forall_mem_cons] at hpieces
    rw [List.pairwise_cons] at hclosed
    cases ps with
    | nil => rw [List.intercalate_singleton, hpieces.1]
    | cons q qs =>
      have hp : ∀ p' ∈ pieces p, IsClosed p' := by
        rw [hpieces.1]
        simpa using hclosed.1 q List.mem_cons_self
      rw [List.intercalate_cons_cons, List.append_assoc]
      show pieces (p ++ ':' :: ':' :: [':', ':'].intercalate (q :: qs)) = _
      rw [pieces_append_mark_of_isClosed hp, hpieces.1,
        ih (List.cons_ne_nil q qs) hpieces.2 hclosed.2, List.singleton_append]

/-! ### Spellings -/

/-- The components of a name, as lists of characters. -/
theorem map_toList_components (n : String) :
    (components n).map String.toList = (pieces n.toList).filter (!·.isEmpty) := by
  unfold components
  rw [List.map_map]
  simp [Function.comp_def]

theorem components_eq_iff {n : String} {cs : List String} :
    components n = cs ↔ (pieces n.toList).filter (!·.isEmpty) = cs.map String.toList := by
  rw [← map_toList_components]
  exact (List.map_injective_iff.mpr fun a b h => String.toList_inj.mp h).eq_iff.symm

/-- Components that are put together anew are read again, also with a mark in front. -/
theorem components_of_intercalate {n m : String} {s : List String} (hs : s <:+ components n)
    (hm : m = "::".intercalate s ∨ m = "::" ++ "::".intercalate s) : components m = s := by
  have hsub : (s.map String.toList).Sublist (pieces n.toList) := by
    refine (hs.sublist.map String.toList).trans ?_
    rw [map_toList_components]
    exact List.filter_sublist
  have hfilter : (s.map String.toList).filter (!·.isEmpty) = s.map String.toList := by
    rw [List.filter_eq_self]
    intro p hp
    have hmem := (hs.sublist.map String.toList).subset hp
    rw [map_toList_components] at hmem
    exact (List.mem_filter.mp hmem).2
  have hread : (pieces ([':', ':'].intercalate (s.map String.toList))).filter (!·.isEmpty) =
      s.map String.toList := by
    by_cases hne : s = []
    · subst hne
      rfl
    · rw [pieces_intercalate (by simpa using hne)
        (fun p hp => pieces_of_mem_pieces p (hsub.subset hp))
        ((pairwise_isClosed_pieces n.toList).sublist hsub), hfilter]
  rw [components_eq_iff]
  rcases hm with rfl | rfl
  · rw [String.toList_intercalate]
    exact hread
  · rw [String.toList_append, String.toList_intercalate]
    exact hread

/-- **All spellings of a name end with the same component.** -/
theorem getLast?_components_of_mem_spellings {m n : String} (h : m ∈ spellings n) :
    (components m).getLast? = (components n).getLast? := by
  unfold spellings at h
  rw [List.mem_append, List.mem_map, List.mem_singleton] at h
  rcases h with ⟨s, hs, rfl⟩ | h
  · obtain ⟨hne, hsuffix⟩ := mem_suffixes_iff.mp hs
    rw [components_of_intercalate hsuffix (Or.inl rfl)]
    obtain ⟨t, ht⟩ := hsuffix
    rw [← ht, List.getLast?_append_of_ne_nil t hne]
  · rw [components_of_intercalate List.suffix_rfl (Or.inr h)]

/-! ### Names of members -/

/-- A name without a mark is one piece. -/
theorem pieces_of_not_isQualified {n : String} (hn : isQualified n = false) :
    pieces n.toList = [n.toList] := by
  have htext := intercalate_pieces n.toList
  obtain ⟨p, ps, hps⟩ := List.exists_cons_of_ne_nil (pieces_ne_nil n.toList)
  rw [hps] at htext
  cases ps with
  | nil => rw [hps, ← htext, List.intercalate_singleton]
  | cons q qs =>
    rw [List.intercalate_cons_cons] at htext
    have hmark : isQualified n = true := isQualified_iff.mpr ⟨p, _, htext⟩
    rw [hn] at hmark
    cases hmark

theorem components_of_not_isQualified {n : String} (hn : isQualified n = false) (hne : n ≠ "") :
    components n = [n] := by
  rw [components_eq_iff, pieces_of_not_isQualified hn]
  simp [hne]

section

variable {cls n : String} (hcls : ∀ p ∈ pieces cls.toList, IsClosed p)
variable (hn : isQualified n = false)

include hcls hn

/-- The pieces of the name of a member. -/
theorem pieces_member : pieces (member cls n).toList = pieces cls.toList ++ [n.toList] := by
  rw [← pieces_of_not_isQualified hn, ← pieces_append_mark_of_isClosed hcls]
  simp [member, String.toList_append]

variable (hne : n ≠ "")

include hne

/-- The name of a member is the last component of its full name. -/
theorem components_member : components (member cls n) = components cls ++ [n] := by
  rw [components_eq_iff, pieces_member hcls hn, List.map_append, map_toList_components,
    List.filter_append]
  simp [hne]

theorem getLast?_components_member : (components (member cls n)).getLast? = some n := by
  rw [components_member hcls hn hne]
  exact List.getLast?_concat

/-- **The unqualified spelling of a member** is its name. -/
theorem mem_spellings_member_iff {m : String} (hm : isQualified m = false) (hmne : m ≠ "") :
    m ∈ spellings (member cls n) ↔ m = n := by
  constructor
  · intro h
    have hlast := getLast?_components_of_mem_spellings h
    rw [components_of_not_isQualified hm hmne, getLast?_components_member hcls hn hne] at hlast
    exact Option.some.inj hlast
  · rintro rfl
    unfold spellings
    rw [components_member hcls hn hne]
    refine List.mem_append_left _ (List.mem_map.mpr ⟨[m], ?_, String.intercalate_singleton⟩)
    exact mem_suffixes_iff.mpr ⟨List.cons_ne_nil m [], List.suffix_append _ _⟩

/-- The name of a member is its shortest spelling. -/
theorem head?_spellings_member : (spellings (member cls n)).head? = some n := by
  have hsuffixes (l : List String) : (suffixes (l ++ [n])).head? = some [n] := by
    induction l with
    | nil => rfl
    | cons x xs ih =>
      rw [List.cons_append, suffixes, List.head?_append, ih]
      rfl
  unfold spellings
  rw [components_member hcls hn hne, List.head?_append, List.head?_map, hsuffixes]
  exact congrArg some String.intercalate_singleton

/-- A full name without empty components is a spelling of itself. -/
theorem member_mem_spellings (hanchored : isAnchored cls)
    (hfull : ∀ p ∈ (pieces cls.toList).tail, p ≠ []) :
    member cls n ∈ spellings (member cls n) := by
  have hhead : pieces cls.toList = [] :: (pieces cls.toList).tail := by
    unfold isAnchored at hanchored
    split at hanchored
    · next cs hcs =>
      rw [hcs]
      rfl
    · cases hanchored
  -- before the first mark there is nothing, and the other pieces are the components
  have hpieces : pieces (member cls n).toList =
      [] :: ((pieces cls.toList).tail ++ [n.toList]) := by
    rw [pieces_member hcls hn, hhead]
    rfl
  have hcomponents : (components (member cls n)).map String.toList =
      (pieces cls.toList).tail ++ [n.toList] := by
    rw [map_toList_components, hpieces, List.filter_cons_of_neg (by simp), List.filter_eq_self]
    intro p hp
    rw [List.mem_append, List.mem_singleton] at hp
    rcases hp with hp | rfl
    · simpa using hfull p hp
    · simpa using hne
  have htext : "::" ++ "::".intercalate (components (member cls n)) = member cls n := by
    rw [← String.toList_inj, String.toList_append, String.toList_intercalate, hcomponents,
      ← intercalate_pieces (member cls n).toList, hpieces]
    rw [List.intercalate_cons_of_ne_nil (by simp)]
    rfl
  unfold spellings
  exact List.mem_append_right _ (List.mem_singleton.mpr htext.symm)

end

end Name

/-! ### The members of a class -/

theorem ClassDecl.plain_flags_of_isComposite {d : ClassDecl Expr} (h : d.kind.isComposite = true) :
    d.flags.plain = false := by
  unfold flags
  cases hkind : d.kind with
  | plain | type =>
    rw [hkind] at h
    cases h
  | widget => cases d.toplevel <;> rfl
  | adaptor => rfl

namespace Registry.Built

variable {o : EngineOptions} {r : Registry} {id : ClassId} {c : Class}

/-- A function of a class was declared there or is a builtin method. -/
theorem function_cases (hr : r.Built o) (hc : r.get? id = some c) {f : MemberFunction}
    (hf : f ∈ c.functions.toList) :
    f.flags.isBuiltin = false ∧ Name.isQualified f.name = false ∨
      ∃ b, f = c.builtinFunction o b := by
  obtain ⟨-, d, c', hc', hbuild⟩ := hr.exists_definedBy hc
  cases hc.symm.trans hc'
  rw [(ClassDecl.makes_of_build hbuild).functions_eq, List.mem_append] at hf
  rcases hf with hf | hf
  · left
    obtain ⟨m, hm, hmf⟩ := List.mem_filterMap.mp hf
    have hname := m.map_toFunction? c
    rw [hmf, Option.map_some] at hname
    obtain ⟨n, hn, hfn⟩ := Option.map_eq_some_iff.mp hname.symm
    rw [Prod.mk.injEq] at hfn
    obtain ⟨rfl, hplain⟩ := hfn
    have hmem : f.name ∈ d.functionNames ++ d.variableNames :=
      List.mem_append_left _ (List.mem_filterMap.mpr ⟨m, hm, hn⟩)
    have hmark := (ClassDecl.exists_build_iff.mp ⟨c, hbuild⟩).not_marked _ hmem
    rw [← Name.isQualified_iff, Bool.not_eq_true] at hmark
    exact ⟨hplain.symm, hmark⟩
  · obtain ⟨b, -, rfl⟩ := List.mem_map.mp hf
    exact Or.inr ⟨b, rfl⟩

theorem isQualified_function (hr : r.Built o) (hc : r.get? id = some c) {f : MemberFunction}
    (hf : f ∈ c.functions.toList) : Name.isQualified f.name = false := by
  rcases hr.function_cases hc hf with ⟨-, hqualified⟩ | ⟨b, rfl⟩
  · exact hqualified
  · show Name.isQualified b.name = false
    cases b <;> decide

/-- A variable has a name without a mark, unless it is the hull or the options variable of
a composite class. -/
theorem isQualified_variable (hr : r.Built o) (hc : r.get? id = some c) {v : Variable}
    (hv : v ∈ c.ownVariables.toList) :
    Name.isQualified v.name = false ∨
      c.flags.plain = false ∧ (v.name = o.hullComponent ∨ v.name = o.optionsVariable) := by
  obtain ⟨-, d, c', hc', hbuild⟩ := hr.exists_definedBy hc
  cases hc.symm.trans hc'
  have hmakes := ClassDecl.makes_of_build hbuild
  rw [hmakes.variables_eq, List.mem_append] at hv
  rcases hv with hv | hv
  · left
    have hmem : v.name ∈ d.variableNames := by
      rw [← d.map_name_toVariable? c]
      exact List.mem_map.mpr ⟨v, hv, rfl⟩
    have hmark := (ClassDecl.exists_build_iff.mp ⟨c, hbuild⟩).not_marked v.name
      (List.mem_append_right _ hmem)
    rwa [← Name.isQualified_iff, Bool.not_eq_true] at hmark
  · right
    obtain ⟨n, hn, rfl⟩ := List.mem_map.mp hv
    unfold ClassDecl.missingVariables at hn
    split at hn
    · next hcomposite =>
      obtain ⟨hn, -⟩ := List.mem_filter.mp hn
      rw [List.mem_eraseDups, List.mem_cons, List.mem_singleton] at hn
      refine ⟨?_, hn⟩
      rw [hmakes.flags_eq, ClassDecl.plain_flags_of_isComposite hcomposite]
    · cases hn

end Registry.Built

end ObjectDispatch
