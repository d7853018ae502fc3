import Mathlib.Data.List.Infix
import ObjectDispatch.Proofs.Installation

/-!
# Which definitions are accepted

A definition is accepted when its name is new, its superclasses are known and distinct,
and its members have distinct names without marks.  Whether it is accepted is settled by
what it declares: what a class gets besides, builtin methods and the members of composite
classes, is added only where the name is free, so it is never refused.

What an accepted definition makes is told here member by member.  A definition that is
not accepted changes nothing.

## Main definitions

* `ClassDecl.Acceptable` — the definitions that are accepted.
* `ClassDecl.Makes` — the class that a definition makes.

## Main results

* `foldlM_isOk_iff` — members are added when their names are distinct and not qualified.
* `Class.exists_installBuiltins`, `Class.exists_installComposite` — **what a class gets
  besides is never refused.**
* `class_of_definition` — **what becomes of a definition.**
-/

namespace ObjectDispatch

/-! ### Names -/

theorem Name.isSome_afterLastMark?_iff (cs : List Char) :
    (afterLastMark? cs).isSome ↔ [':', ':'] <:+: cs := by
  fun_induction afterLastMark? cs with
  | case1 => simp
  | case2 c cs rest hrest ih =>
    rw [hrest] at ih
    rw [List.infix_cons_iff]
    simpa using Or.inr (ih.mp rfl)
  | case3 rest hrest ih => simp [List.infix_cons_iff]
  | case4 c cs hrest hmark ih =>
    -- no mark begins with the first character
    have hfirst : ¬ [':', ':'] <+: c :: cs := by
      rintro ⟨rest, hcs⟩
      cases hcs
      exact hmark rest rfl rfl
    rw [hrest] at ih
    rw [List.infix_cons_iff, ← ih]
    simpa using hfirst

/-- A name is qualified when it holds a mark. -/
theorem Name.isQualified_iff {n : String} : isQualified n = true ↔ [':', ':'] <:+: n.toList :=
  isSome_afterLastMark?_iff n.toList

namespace MemberTable

variable {α : Type} {t : MemberTable α} {n : String} {a : α}

theorem exists_insert?_iff : (∃ t', t.insert? n a = some t') ↔ n ∉ t.names := by
  rw [← Option.isSome_iff_exists, Option.isSome_iff_ne_none, Ne, insert?_eq_none_iff, contains,
    List.contains_iff_mem]

theorem get?_eq_none_iff : t.get? n = none ↔ n ∉ t.names := by
  rw [Option.eq_none_iff_forall_ne_some]
  simp [names, MemberTable.get?_eq_some_iff]

end MemberTable

/-! ### Declared members -/

/-- A member is entered into a table where that is allowed and its name is free. -/
theorem exists_entered_iff {α β : Type} {t : MemberTable α} {n : String} {a : α} {p : Prop}
    {x : Except DispatchError β} {f : MemberTable α → β}
    (h : ∀ b, x = .ok b ↔ p ∧ ∃ t', t.insert? n a = some t' ∧ b = f t') :
    (∃ b, x = .ok b) ↔ p ∧ n ∉ t.names := by
  rw [← MemberTable.exists_insert?_iff (a := a)]
  simp only [h]
  constructor
  · rintro ⟨_, hp, t', ht, -⟩
    exact ⟨hp, t', ht⟩
  · rintro ⟨hp, t', ht⟩
    exact ⟨f t', hp, t', ht, rfl⟩

/-- A loop that adds members comes to its end when none of their names is qualified, or
comes twice, or was taken before. -/
theorem foldlM_isOk_iff {α β : Type} {name : α → String} {names : β → List String}
    {add : β → α → Except DispatchError β}
    (hadd : ∀ b a, (∃ b', add b a = .ok b') ↔ Name.isQualified (name a) = false ∧ name a ∉ names b)
    (hnames : ∀ b a b', add b a = .ok b' → names b' = names b ++ [name a]) (as : List α) {b : β}
    (hb : (names b).Nodup) :
    (∃ b', as.foldlM add b = .ok b') ↔
      (∀ a ∈ as, Name.isQualified (name a) = false) ∧ (names b ++ as.map name).Nodup := by
  induction as generalizing b with
  | nil => simpa using ⟨fun _ => hb, fun _ => ⟨b, rfl⟩⟩
  | cons a as ih =>
    simp only [List.foldlM_cons, bind_eq_ok_iff]
    -- in both directions the names stay distinct, so the loop may go on from where it is
    constructor
    · rintro ⟨b', c, hc, h⟩
      obtain ⟨hqualified, hfree⟩ := (hadd b a).mp ⟨c, hc⟩
      have hnodup : (names c).Nodup := by
        rw [hnames b a c hc]
        exact nodup_concat_of_not_mem hb hfree
      obtain ⟨hall, hrest⟩ := (ih hnodup).mp ⟨b', h⟩
      rw [hnames b a c hc, List.append_assoc, List.singleton_append] at hrest
      exact ⟨List.forall_mem_cons.mpr ⟨hqualified, hall⟩, hrest⟩
    · rintro ⟨hall, hnodup⟩
      obtain ⟨hqualified, hall⟩ := List.forall_mem_cons.mp hall
      have hfree : name a ∉ names b := fun ha =>
        (List.nodup_append.mp hnodup).2.2 _ ha _ List.mem_cons_self rfl
      obtain ⟨c, hc⟩ := (hadd b a).mpr ⟨hqualified, hfree⟩
      rw [List.map_cons, ← List.singleton_append, ← List.append_assoc, ← hnames b a c hc] at hnodup
      obtain ⟨b', h⟩ := (ih hnodup.of_append_left).mpr ⟨hall, hnodup⟩
      exact ⟨b', c, hc, h⟩

namespace Class

variable {c c' : Class}

theorem exists_declareFunction_iff (c : Class) (f : MemberFunction) :
    (∃ c', c.declareFunction f = .ok c') ↔
      Name.isQualified f.name = false ∧ f.name ∉ c.functions.names :=
  exists_entered_iff fun c' => by rw [declareFunction_eq_ok_iff, addFunction_eq_ok_iff]

theorem exists_declareVariable_iff (c : Class) (v : Variable) :
    (∃ c', c.declareVariable v = .ok c') ↔
      Name.isQualified v.name = false ∧ v.name ∉ c.ownVariables.names :=
  exists_entered_iff fun c' => by rw [declareVariable_eq_ok_iff, addVariable_eq_ok_iff]

theorem names_of_declareFunction (c : Class) (f : MemberFunction) (c' : Class)
    (h : c.declareFunction f = .ok c') : c'.functions.names = c.functions.names ++ [f.name] := by
  obtain ⟨t, ht, rfl⟩ := addFunction_eq_ok_iff.mp (declareFunction_eq_ok_iff.mp h).2
  exact MemberTable.names_insert? ht

theorem names_of_declareVariable (c : Class) (v : Variable) (c' : Class)
    (h : c.declareVariable v = .ok c') :
    c'.ownVariables.names = c.ownVariables.names ++ [v.name] := by
  obtain ⟨t, ht, rfl⟩ := addVariable_eq_ok_iff.mp (declareVariable_eq_ok_iff.mp h).2
  exact MemberTable.names_insert? ht

/-- Declared functions leave the variables and the components as they are. -/
theorem other_of_declareFunctions {fs : List MemberFunction}
    (h : fs.foldlM declareFunction c = .ok c') :
    c'.ownVariables = c.ownVariables ∧ c'.components = c.components := by
  refine foldlM_induct (I := fun k => k.ownVariables = c.ownVariables ∧
    k.components = c.components) (fun f _ k k' hk h => ?_) ⟨rfl, rfl⟩ h
  obtain ⟨t, -, rfl⟩ := addFunction_eq_ok_iff.mp (declareFunction_eq_ok_iff.mp h).2
  exact hk

/-- Declared variables come in the order of their declaration, and leave the components
as they are. -/
theorem ownVariables_of_declareVariables {vs : List Variable}
    (h : vs.foldlM declareVariable c = .ok c') :
    c'.ownVariables.toList = c.ownVariables.toList ++ vs ∧ c'.components = c.components := by
  have hstep (c : Class) (v : Variable) (c' : Class) (h : c.declareVariable v = .ok c') :
      c'.ownVariables.toList = c.ownVariables.toList ++ [v] := by
    obtain ⟨t, ht, rfl⟩ := addVariable_eq_ok_iff.mp (declareVariable_eq_ok_iff.mp h).2
    exact MemberTable.toList_insert? ht
  refine ⟨by rw [foldlM_append hstep h, List.map_id'], ?_⟩
  refine foldlM_induct (I := fun k => k.components = c.components) (fun v _ k k' hk h => ?_) rfl h
  obtain ⟨t, -, rfl⟩ := addVariable_eq_ok_iff.mp (declareVariable_eq_ok_iff.mp h).2
  exact hk

end Class

/-! ### What is declared -/

/-- A member is declared in the same way for classes of one number and name. -/
theorem MemberDecl.toFunction?_congr {c c' : Class} (hid : c'.id = c.id)
    (hname : c'.fullName = c.fullName) (m : MemberDecl Expr) :
    m.toFunction? c' = m.toFunction? c := by
  cases m <;> simp only [toFunction?, toFunction?.make, Class.memberName, hid, hname]

theorem Class.builtinFunction_congr {c c' : Class} (hid : c'.id = c.id)
    (hname : c'.fullName = c.fullName) : c'.builtinFunction = c.builtinFunction := by
  funext o b
  rw [builtinFunction, builtinFunction, memberName, memberName, hid, hname]

theorem Class.protectedVariable_congr {c c' : Class} (hid : c'.id = c.id)
    (hname : c'.fullName = c.fullName) : c'.protectedVariable = c.protectedVariable := by
  funext n
  rw [protectedVariable, protectedVariable, memberName, memberName, hid, hname]

theorem MemberDecl.toVariable?_congr {c c' : Class} (hid : c'.id = c.id)
    (hname : c'.fullName = c.fullName) (m : MemberDecl Expr) :
    m.toVariable? c' = m.toVariable? c := by
  cases m <;> simp only [toVariable?, toVariable?.make, Class.memberName, hid, hname]

/-- The name of the variable that a member declares, if it declares one. -/
def MemberDecl.variableName? {Code : Type} : MemberDecl Code → Option String
  | .var n _ _ | .option n _ _ => some n
  | .method _ _ _ | .procedure _ _ | .ctor _ _ | .dtor _ => none

namespace ClassDecl

variable {d : ClassDecl Expr} {r : Registry} {o : EngineOptions} {c c' : Class}

/-- The names of the functions that the definition declares, lifecycle functions
included. -/
def functionNames (d : ClassDecl Expr) : List String := d.members.filterMap (·.functionName?)

/-- The names of the variables that the definition declares. -/
def variableNames (d : ClassDecl Expr) : List String := d.members.filterMap (·.variableName?)

theorem map_name_toFunction? (d : ClassDecl Expr) (c : Class) :
    (d.members.filterMap (MemberDecl.toFunction? c)).map (·.name) = d.functionNames := by
  rw [List.map_filterMap, functionNames]
  refine List.filterMap_congr fun m _ => ?_
  cases m <;> rfl

theorem map_name_toVariable? (d : ClassDecl Expr) (c : Class) :
    (d.members.filterMap (MemberDecl.toVariable? c)).map (·.name) = d.variableNames := by
  rw [List.map_filterMap, variableNames]
  refine List.filterMap_congr fun m _ => ?_
  cases m <;> rfl

/-- **The declared members are accepted** when the functions and the variables have
distinct names without marks. -/
theorem exists_declareMembers_iff (hfunctions : c.functions.names = [])
    (hvariables : c.ownVariables.names = []) :
    (∃ c', d.declareMembers c = .ok c') ↔
      (∀ n ∈ d.functionNames ++ d.variableNames, ¬ [':', ':'] <:+: n.toList) ∧
        d.functionNames.Nodup ∧ d.variableNames.Nodup := by
  have hmark {α : Type} {name : α → String} (as : List α) :
      (∀ a ∈ as, Name.isQualified (name a) = false) ↔
        ∀ n ∈ as.map name, ¬ [':', ':'] <:+: n.toList := by
    simp only [List.forall_mem_map, ← Name.isQualified_iff, Bool.not_eq_true]
  have hfirst := foldlM_isOk_iff Class.exists_declareFunction_iff Class.names_of_declareFunction
    (d.members.filterMap (MemberDecl.toFunction? c)) (b := c) (by simp [hfunctions])
  have hsecond {k : Class} (hk : k.ownVariables.names = []) :=
    foldlM_isOk_iff Class.exists_declareVariable_iff Class.names_of_declareVariable
      (d.members.filterMap (MemberDecl.toVariable? k)) (b := k) (by simp [hk])
  simp only [hmark, map_name_toFunction?, hfunctions, List.nil_append] at hfirst
  simp only [hmark, map_name_toVariable?] at hsecond
  -- the functions leave the class without variables
  have hnone {k : Class} (hk : (d.members.filterMap (MemberDecl.toFunction? c)).foldlM
      Class.declareFunction c = .ok k) : k.ownVariables.names = [] := by
    rw [(Class.other_of_declareFunctions hk).1, hvariables]
  rw [List.forall_mem_append]
  unfold declareMembers
  simp only [bind_eq_ok_iff]
  constructor
  · rintro ⟨c', k, hk, hc'⟩
    obtain ⟨hfunctionMarks, hfunctionNames⟩ := hfirst.mp ⟨k, hk⟩
    obtain ⟨hvariableMarks, hvariableNames⟩ := (hsecond (hnone hk)).mp ⟨c', hc'⟩
    rw [hnone hk, List.nil_append] at hvariableNames
    exact ⟨⟨hfunctionMarks, hvariableMarks⟩, hfunctionNames, hvariableNames⟩
  · rintro ⟨⟨hfunctionMarks, hvariableMarks⟩, hfunctionNames, hvariableNames⟩
    obtain ⟨k, hk⟩ := hfirst.mpr ⟨hfunctionMarks, hfunctionNames⟩
    obtain ⟨c', hc'⟩ := (hsecond (hnone hk)).mpr
      ⟨hvariableMarks, by rwa [hnone hk, List.nil_append]⟩
    exact ⟨c', k, hk, hc'⟩

/-- What the declared members are, in the order of their declaration. -/
theorem members_of_declareMembers (h : d.declareMembers c = .ok c') :
    c'.functions.toList = c.functions.toList ++ d.members.filterMap (MemberDecl.toFunction? c') ∧
      c'.ownVariables.toList =
        c.ownVariables.toList ++ d.members.filterMap (MemberDecl.toVariable? c') ∧
      c'.components = c.components := by
  have hgrows := grows_of_declareMembers h
  have hfunctions := toList_of_declareMembers h
  obtain ⟨k, hk, h⟩ := bind_eq_ok_iff.mp h
  obtain ⟨hvariables, hcomponents⟩ := Class.other_of_declareFunctions hk
  obtain ⟨hdeclared, hkept⟩ := Class.ownVariables_of_declareVariables h
  have hvariableGrows := grows_of_declareVariables h
  have hsameFunction := MemberDecl.toFunction?_congr hgrows.id_eq hgrows.fullName_eq
  have hsameVariable := MemberDecl.toVariable?_congr hvariableGrows.id_eq hvariableGrows.fullName_eq
  refine ⟨?_, ?_, hkept.trans hcomponents⟩
  · rw [hfunctions, funext hsameFunction]
  · rw [hdeclared, hvariables, funext hsameVariable]

/-! ### Superclasses -/

/-- **Superclasses are found** when every name means a class and none of these comes
twice. -/
theorem findSupers_eq_ok_iff {ns : List String} {found supers : List ClassId}
    (hfound : found.Nodup) : d.findSupers r ns found = .ok supers ↔
      (∀ n ∈ ns, (r.lookup? n).isSome) ∧ (found ++ ns.filterMap r.lookup?).Nodup ∧
        supers = found ++ ns.filterMap r.lookup? := by
  induction ns generalizing found with
  | nil =>
    rw [findSupers, Except.ok.injEq, List.filterMap_nil, List.append_nil]
    exact ⟨fun h => ⟨nofun, hfound, h.symm⟩, fun h => h.2.2.symm⟩
  | cons n ns ih =>
    unfold findSupers
    cases hn : r.lookup? n with
    | none => simp [hn]
    | some id =>
      have hids : found ++ (n :: ns).filterMap r.lookup? =
          (found ++ [id]) ++ ns.filterMap r.lookup? := by
        rw [List.filterMap_cons, hn, List.append_assoc, List.singleton_append]
      rw [hids]
      simp only [List.forall_mem_cons, hn, Option.isSome_some, true_and]
      split
      · next htwice =>
        -- a class that has been found already is refused
        have hmem : id ∈ found := List.contains_iff_mem.mp htwice
        have hnot : ¬ (found ++ [id]).Nodup := fun h =>
          (List.nodup_append.mp h).2.2 id hmem id (List.mem_singleton_self id) rfl
        exact iff_of_false nofun fun h => hnot h.2.1.of_append_left
      · next hfresh =>
        exact ih (nodup_concat_of_not_mem hfound fun h => hfresh (List.contains_iff_mem.mpr h))

end ClassDecl

/-! ### What a class gets besides -/

namespace Class

variable {c c' : Class} {r : Registry} {o : EngineOptions} {n : String}

theorem hasFunction_eq_false_iff : c.hasFunction n = false ↔ n ∉ c.functions.names := by
  rw [← Bool.not_eq_true, hasFunction, MemberTable.contains, List.contains_iff_mem]

/-- What the class has itself, its heritage has. -/
theorem not_mem_functions_of_inheritsFunction (hself : c.id ∈ c.heritage)
    (h : c.inheritsFunction r n = false) : n ∉ c.functions.names := by
  rw [← hasFunction_eq_false_iff]
  unfold inheritsFunction at h
  rw [List.any_eq_false] at h
  simpa using h c.id hself

/-- **The installation of builtin methods is never refused** to a class that stands in its
own heritage: they come last, those that the heritage lacks. -/
theorem exists_installEach (hself : c.id ∈ c.heritage) {bs : List Builtin} (hbs : bs.Nodup)
    (n : Nat) : ∃ c' m, installEach r o bs n c = (c', .ok m) ∧
      c'.functions.toList = c.functions.toList ++
        (bs.filter fun b => c.inheritsFunction r b.name = false).map (c.builtinFunction o) ∧
      c'.ownVariables = c.ownVariables ∧ c'.components = c.components := by
  induction bs generalizing c n with
  | nil => exact ⟨c, n, rfl, by simp, rfl, rfl⟩
  | cons b bs ih =>
    rw [List.nodup_cons] at hbs
    unfold installEach
    cases hinherits : c.inheritsFunction r b.name with
    | true =>
      obtain ⟨c', m, hinstall, hfunctions, hrest⟩ := ih hself hbs.2 n
      refine ⟨c', m, hinstall, ?_, hrest⟩
      rw [hfunctions, List.filter_cons_of_neg (by simp [hinherits])]
    | false =>
      -- the name is free, so the method is added
      have hfree := not_mem_functions_of_inheritsFunction hself hinherits
      obtain ⟨t, ht⟩ := MemberTable.exists_insert?_iff (a := c.builtinFunction o b).mpr hfree
      have hadd : c.addFunction (c.builtinFunction o b) = .ok { c with functions := t } :=
        addFunction_eq_ok_iff.mpr ⟨t, ht, rfl⟩
      obtain ⟨c', m, hinstall, hfunctions, hrest⟩ :=
        ih (c := { c with functions := t }) hself hbs.2 (n + 1)
      refine ⟨c', m, ?_, ?_, hrest⟩
      · rw [if_neg Bool.false_ne_true, hadd]
        exact hinstall
      · have hothers : (bs.filter fun x =>
            inheritsFunction { c with functions := t } r x.name = false) =
              bs.filter fun x => c.inheritsFunction r x.name = false := by
          refine List.filter_congr fun x hx => ?_
          have hne : x.name ≠ (c.builtinFunction o b).name := fun hname =>
            hbs.1 (Builtin.name_injective hname ▸ hx)
          rw [(inheritsFunction_of_addFunction hadd hne).2]
        rw [hfunctions, hothers, List.filter_cons_of_pos (by simp [hinherits]), List.map_cons,
          MemberTable.toList_insert? ht, List.append_assoc, List.singleton_append]
        rfl

theorem exists_installBuiltins (hself : c.id ∈ c.heritage) (r : Registry) (o : EngineOptions) :
    ∃ c' m, c.installBuiltins r o = (c', .ok m) ∧
      c'.functions.toList = c.functions.toList ++
        (Builtin.all.filter fun b => c.inheritsFunction r b.name = false).map
          (c.builtinFunction o) ∧
      c'.ownVariables = c.ownVariables ∧ c'.components = c.components :=
  exists_installEach hself (by decide) 0

/-- `c'` is `c` with a protected variable called `n`, unless `c` has a variable of that
name. -/
structure Supplied (c : Class) (n : String) (c' : Class) : Prop where
  id_eq : c'.id = c.id
  fullName_eq : c'.fullName = c.fullName
  functions_eq : c'.functions = c.functions
  toList_eq : c'.ownVariables.toList = c.ownVariables.toList ++
    ([n].filter (· ∉ c.ownVariables.names)).map c.protectedVariable
  names_eq : c'.ownVariables.names = c.ownVariables.names ++ [n].filter (· ∉ c.ownVariables.names)

theorem supplied_of_some {v : Variable} (hv : c.ownVariable? n = some v) : c.Supplied n c := by
  have hn : n ∈ c.ownVariables.names := by
    by_contra hn
    exact Option.some_ne_none v (hv.symm.trans (MemberTable.get?_eq_none_iff.mpr hn))
  exact ⟨rfl, rfl, rfl, by simp [hn], by simp [hn]⟩

theorem exists_addVariable (hv : c.ownVariable? n = none) :
    ∃ k, c.addVariable (c.protectedVariable n) = .ok k ∧ c.Supplied n k ∧
      k.components = c.components := by
  have hn : n ∉ c.ownVariables.names := MemberTable.get?_eq_none_iff.mp hv
  obtain ⟨t, ht⟩ := MemberTable.exists_insert?_iff (a := c.protectedVariable n).mpr hn
  refine ⟨{ c with ownVariables := t }, addVariable_eq_ok_iff.mpr ⟨t, ht, rfl⟩,
    ⟨rfl, rfl, rfl, ?_, ?_⟩, rfl⟩
  · have hlast : t.toList = c.ownVariables.toList ++ [c.protectedVariable n] :=
      MemberTable.toList_insert? ht
    simp [hlast, hn]
  · have hlast : t.names = c.ownVariables.names ++ [n] := MemberTable.names_insert? ht
    simp [hlast, hn]

/-- A component with the variable that keeps it. -/
def slot (c : Class) (n : String) : Component :=
  { owner := c.id
    name := n
    store := ((c.ownVariable? n).map (·.fullName)).getD (c.memberName n) }

/-- A component that the class lacks is added last, with a variable to keep it. -/
theorem exists_installComponent (hfree : n ∉ c.components.names) :
    ∃ c', c.installComponent n = .ok (c', true) ∧ c.Supplied n c' ∧
      c'.components.toList = c.components.toList ++ [c.slot n] := by
  have hadd {k : Class} (hk : k.components = c.components) :
      ∃ t, k.addComponent (c.slot n) = .ok { k with components := t } ∧
        t.toList = c.components.toList ++ [c.slot n] := by
    obtain ⟨t, ht⟩ := MemberTable.exists_insert?_iff (a := c.slot n).mpr (hk ▸ hfree)
    exact ⟨t, addComponent_eq_ok_iff.mpr ⟨t, ht, rfl⟩, hk ▸ MemberTable.toList_insert? ht⟩
  have hnone : (c.component? n).isSome = false := by
    rw [Option.isSome_eq_false_iff, Option.isNone_iff_eq_none]
    exact MemberTable.get?_eq_none_iff.mpr hfree
  unfold installComponent
  rw [hnone, if_neg Bool.false_ne_true]
  cases hv : c.ownVariable? n with
  | some v =>
    obtain ⟨t, hslot, hcomponents⟩ := hadd (k := c) rfl
    obtain ⟨hid, hname, hfunctions, htoList, hnames⟩ := supplied_of_some hv
    rw [slot, hv] at hslot
    exact ⟨_, bind_eq_ok_iff.mpr ⟨c, rfl, bind_eq_ok_iff.mpr ⟨_, hslot, rfl⟩⟩,
      ⟨hid, hname, hfunctions, htoList, hnames⟩, hcomponents⟩
  | none =>
    obtain ⟨k, hvariable, ⟨hid, hname, hfunctions, htoList, hnames⟩, hk⟩ := exists_addVariable hv
    obtain ⟨t, hslot, hcomponents⟩ := hadd hk
    rw [slot, hv] at hslot
    exact ⟨_, bind_eq_ok_iff.mpr ⟨k, hvariable, bind_eq_ok_iff.mpr ⟨_, hslot, rfl⟩⟩,
      ⟨hid, hname, hfunctions, htoList, hnames⟩, hcomponents⟩

/-- The options variable is added where the class has no variable of that name. -/
theorem exists_installOptionsVariable (c : Class) (n : String) :
    ∃ c' added, c.installOptionsVariable n = .ok (c', added) ∧ c.Supplied n c' ∧
      c'.components = c.components := by
  unfold installOptionsVariable
  cases hv : c.ownVariable? n with
  | some v => exact ⟨c, false, rfl, supplied_of_some hv, rfl⟩
  | none =>
    obtain ⟨k, hvariable, hk, hcomponents⟩ := exists_addVariable hv
    exact ⟨k, true, by rw [hvariable]; rfl, hk, hcomponents⟩

/-- Of two names, the second is left out as well where it is the first. -/
theorem filter_eraseDups_pair (a b : String) (names : List String) :
    [a, b].eraseDups.filter (· ∉ names) =
      [a].filter (· ∉ names) ++ [b].filter (· ∉ names ++ [a].filter (· ∉ names)) := by
  by_cases hab : b = a
  · subst hab
    by_cases hb : b ∈ names <;> simp [List.eraseDups_cons, hb]
  · by_cases ha : a ∈ names <;> by_cases hb : b ∈ names <;>
      simp [List.eraseDups_cons, hab, ha, hb]

/-- **The installation of the hull and the options variable is never refused.** -/
theorem exists_installComposite (c : Class) (o : EngineOptions) :
    ∃ c', c.installComposite o = .ok c' := by
  obtain ⟨k, added, hk⟩ : ∃ k added, c.installComponent o.hullComponent = .ok (k, added) := by
    by_cases htaken : o.hullComponent ∈ c.components.names
    · obtain ⟨slot, hslot⟩ : ∃ slot, c.component? o.hullComponent = some slot := by
        rw [← Option.ne_none_iff_exists']
        exact fun hnone => MemberTable.get?_eq_none_iff.mp hnone htaken
      refine ⟨c, false, ?_⟩
      unfold installComponent
      rw [hslot]
      rfl
    · obtain ⟨k, hk, -⟩ := exists_installComponent htaken
      exact ⟨k, true, hk⟩
  obtain ⟨k', added', hk', -⟩ := k.exists_installOptionsVariable o.optionsVariable
  exact ⟨k', bind_eq_ok_iff.mpr ⟨_, hk, bind_eq_ok_iff.mpr ⟨_, hk', rfl⟩⟩⟩

/-- A class without components gets the hull, and those of the two variables that it does
not have already. -/
theorem members_of_installComposite (hnone : c.components = .empty)
    (h : c.installComposite o = .ok c') :
    c'.ownVariables.toList = c.ownVariables.toList ++
      ([o.hullComponent, o.optionsVariable].eraseDups.filter (· ∉ c.ownVariables.names)).map
        c.protectedVariable ∧
    c'.components.toList = [c.slot o.hullComponent] := by
  have hfree : o.hullComponent ∉ c.components.names := by
    rw [hnone]
    exact List.not_mem_nil
  obtain ⟨k, hk, hfirst, hcomponents⟩ := exists_installComponent hfree
  obtain ⟨k', added, hk', hsecond, hsame⟩ := k.exists_installOptionsVariable o.optionsVariable
  have hc' : c.installComposite o = .ok k' :=
    bind_eq_ok_iff.mpr ⟨_, hk, bind_eq_ok_iff.mpr ⟨_, hk', rfl⟩⟩
  cases hc'.symm.trans h
  have hprotected := protectedVariable_congr hfirst.id_eq hfirst.fullName_eq
  refine ⟨?_, by rw [hsame, hcomponents, hnone]; rfl⟩
  rw [hsecond.toList_eq, hfirst.toList_eq, hfirst.names_eq, hprotected, List.append_assoc,
    ← List.map_append]
  rw [← filter_eraseDups_pair]

/-- What the heritage of a class lacks that is not registered yet. -/
theorem inheritsFunction_eq_false_iff (hid : c.id = r.nextId) (hself : c.id ∈ c.heritage) :
    c.inheritsFunction r n = false ↔
      n ∉ c.functions.names ∧ ∀ k ∈ c.heritage.filterMap r.get?, n ∉ k.functions.names := by
  -- the class has its number already, under which nothing is registered
  have hunregistered : r.get? c.id = none := by simp [hid, Registry.get?, Registry.nextId]
  constructor
  · intro h
    refine ⟨not_mem_functions_of_inheritsFunction hself h, fun k hk => ?_⟩
    obtain ⟨id, hmem, hget⟩ := List.mem_filterMap.mp hk
    have hne : id ≠ c.id := by
      rintro rfl
      rw [hunregistered] at hget
      cases hget
    unfold inheritsFunction at h
    rw [List.any_eq_false] at h
    have hlacks := h id hmem
    rw [if_neg hne, hget] at hlacks
    exact hasFunction_eq_false_iff.mp (by simpa using hlacks)
  · rintro ⟨hown, hothers⟩
    unfold inheritsFunction
    rw [List.any_eq_false]
    intro id hmem
    split
    · rw [hasFunction_eq_false_iff.mpr hown]
      exact Bool.false_ne_true
    · cases hget : r.get? id with
      | none => exact Bool.false_ne_true
      | some k =>
        have hlacks := hothers k (List.mem_filterMap.mpr ⟨id, hmem, hget⟩)
        simp [hasFunction_eq_false_iff.mpr hlacks]

/-- The component of a class whose members are its own is kept under its full name. -/
theorem Formed.slot_eq (hc : c.Formed) (n : String) :
    c.slot n = { owner := c.id, name := n, store := c.memberName n } := by
  unfold slot
  cases hv : c.ownVariable? n with
  | none => rfl
  | some v =>
    obtain ⟨hmem, rfl⟩ := hc.ownVariables.get?_eq_some_iff.mp hv
    rw [Option.map_some, Option.getD_some, (hc.ownVariables.all v hmem).fullName_eq]
    rfl

end Class

/-! ### Definitions -/

namespace ClassDecl

variable {d : ClassDecl Expr} {r : Registry} {o : EngineOptions} {c c' : Class}

/-- The definitions that are accepted: the name is new, the superclasses are known and
distinct, no member has a qualified name, and neither two functions nor two variables
have the same. -/
structure Acceptable (d : ClassDecl Expr) (r : Registry) : Prop where
  fresh : ∀ c ∈ r.classes, c.fullName ≠ d.fullName
  supers_known : ∀ n ∈ d.inherits, (r.lookup? n).isSome
  supers_nodup : (d.inherits.filterMap r.lookup?).Nodup
  not_marked : ∀ n ∈ d.functionNames ++ d.variableNames, ¬ [':', ':'] <:+: n.toList
  functions_nodup : d.functionNames.Nodup
  variables_nodup : d.variableNames.Nodup

instance (d : ClassDecl Expr) (r : Registry) : Decidable (d.Acceptable r) :=
  decidable_of_iff
    ((∀ c ∈ r.classes, c.fullName ≠ d.fullName) ∧ (∀ n ∈ d.inherits, (r.lookup? n).isSome) ∧
      (d.inherits.filterMap r.lookup?).Nodup ∧
      (∀ n ∈ d.functionNames ++ d.variableNames, ¬ [':', ':'] <:+: n.toList) ∧
      d.functionNames.Nodup ∧ d.variableNames.Nodup)
    ⟨fun ⟨hfresh, hknown, hsupers, hmarks, hfunctions, hvariables⟩ =>
        ⟨hfresh, hknown, hsupers, hmarks, hfunctions, hvariables⟩,
      fun h => ⟨h.fresh, h.supers_known, h.supers_nodup, h.not_marked, h.functions_nodup,
        h.variables_nodup⟩⟩

/-- The builtin methods that neither the definition of the class `c` declares nor an
ancestor of it owns. -/
def missingBuiltins (d : ClassDecl Expr) (r : Registry) (c : Class) : List Builtin :=
  Builtin.all.filter fun b =>
    b.name ∉ d.functionNames ∧ ∀ k ∈ c.heritage.filterMap r.get?, b.name ∉ k.functions.names

/-- The variables that a composite class gets: the hull and the options, where it does
not declare them. -/
def missingVariables (d : ClassDecl Expr) (o : EngineOptions) : List String :=
  if d.kind.isComposite then
    [o.hullComponent, o.optionsVariable].eraseDups.filter (· ∉ d.variableNames)
  else []

/-- The class `c` is what the definition makes in the registry `r`, with the settings
`o`. -/
structure Makes (d : ClassDecl Expr) (r : Registry) (o : EngineOptions) (c : Class) : Prop where
  id_eq : c.id = r.nextId
  fullName_eq : c.fullName = d.fullName
  supers_eq : c.supers = d.inherits.filterMap r.lookup?
  flags_eq : c.flags = d.flags
  heritage_eq : c.heritage = r.linearize c.id c.supers
  functions_eq : c.functions.toList = d.members.filterMap (MemberDecl.toFunction? c) ++
    (d.missingBuiltins r c).map (c.builtinFunction o)
  variables_eq : c.ownVariables.toList = d.members.filterMap (MemberDecl.toVariable? c) ++
    (d.missingVariables o).map c.protectedVariable
  components_eq : c.components.toList =
    if d.kind.isComposite then
      [{ owner := c.id, name := o.hullComponent, store := c.memberName o.hullComponent }]
    else []
  resolved_eq : c.resolved r = c

/-- A class with its declared members stands in its own heritage. -/
theorem mem_heritage_of_declareMembers {supers : List ClassId}
    (h : d.declareMembers (d.bare r supers) = .ok c) : c.id ∈ c.heritage := by
  have hgrows := grows_of_declareMembers h
  rw [hgrows.id_eq, hgrows.heritage_eq]
  exact (Registry.explores_linearize r r.nextId supers).visited_subset (List.mem_singleton_self _)

/-- **A definition is accepted** when its own declarations allow it. -/
theorem exists_build_iff : (∃ c, d.build r o = .ok c) ↔ d.Acceptable r := by
  constructor
  · rintro ⟨c, h⟩
    obtain ⟨hnew, supers, declared, installed, n, k, hsupers, hdeclared, -⟩ :=
      build_eq_ok_iff.mp h
    obtain ⟨hknown, hnodup, -⟩ := (findSupers_eq_ok_iff List.nodup_nil).mp hsupers
    obtain ⟨hmarks, hfunctions, hvariables⟩ :=
      (exists_declareMembers_iff rfl rfl).mp ⟨declared, hdeclared⟩
    exact ⟨Registry.byFullName?_eq_none_iff.mp hnew, hknown, hnodup, hmarks, hfunctions,
      hvariables⟩
  · intro h
    have hsupers : d.findSupers r d.inherits [] = .ok (d.inherits.filterMap r.lookup?) :=
      (findSupers_eq_ok_iff List.nodup_nil).mpr ⟨h.supers_known, h.supers_nodup, rfl⟩
    obtain ⟨declared, hdeclared⟩ :=
      (exists_declareMembers_iff (c := d.bare r (d.inherits.filterMap r.lookup?)) rfl rfl).mpr
        ⟨h.not_marked, h.functions_nodup, h.variables_nodup⟩
    obtain ⟨installed, n, hinstall, -⟩ :=
      Class.exists_installBuiltins (mem_heritage_of_declareMembers hdeclared) r o
    obtain ⟨k, hk⟩ : ∃ k, (if d.kind.isComposite then installed.installComposite o
        else .ok installed) = .ok k := by
      split
      · exact installed.exists_installComposite o
      · exact ⟨installed, rfl⟩
    exact ⟨k.resolved r, build_eq_ok_iff.mpr ⟨Registry.byFullName?_eq_none_iff.mpr h.fresh, _,
      declared, installed, n, k, hsupers, hdeclared, hinstall, hk, rfl⟩⟩

/-- The functions of a class with builtin methods: the declared ones, and those methods
that its heritage lacks. -/
theorem functions_of_installBuiltins {supers : List ClassId} {declared installed : Class} {n : Nat}
    (hdeclared : d.declareMembers (d.bare r supers) = .ok declared)
    (hinstall : declared.installBuiltins r o = (installed, .ok n)) :
    installed.functions.toList = d.members.filterMap (MemberDecl.toFunction? declared) ++
      (d.missingBuiltins r declared).map (declared.builtinFunction o) ∧
    installed.ownVariables = declared.ownVariables ∧
    installed.components = declared.components := by
  have hgrows := grows_of_declareMembers hdeclared
  have hself := mem_heritage_of_declareMembers hdeclared
  have hfunctions : declared.functions.toList =
      d.members.filterMap (MemberDecl.toFunction? declared) :=
    (members_of_declareMembers hdeclared).1
  have hnames : declared.functions.names = d.functionNames := by
    rw [(hgrows.formed (d.formed_bare r supers)).functions.names_eq, hfunctions,
      map_name_toFunction?]
  obtain ⟨installed', n', hinstall', hadded, hrest⟩ := Class.exists_installBuiltins hself r o
  cases hinstall.symm.trans hinstall'
  refine ⟨?_, hrest⟩
  rw [hadded, hfunctions, missingBuiltins]
  congr 2
  refine List.filter_congr fun b _ => ?_
  rw [decide_eq_decide, Class.inheritsFunction_eq_false_iff hgrows.id_eq hself, hnames]

/-- What a composite class gets besides, when its variables so far are the declared ones. -/
theorem members_of_composite {k : Class} (hc : c.Formed) (hnone : c.components = .empty)
    (hnames : c.ownVariables.names = d.variableNames)
    (hk : (if d.kind.isComposite then c.installComposite o else .ok c) = .ok k) :
    k.functions = c.functions ∧
    k.ownVariables.toList =
      c.ownVariables.toList ++ (d.missingVariables o).map c.protectedVariable ∧
    k.components.toList =
      if d.kind.isComposite then
        [{ owner := c.id, name := o.hullComponent, store := c.memberName o.hullComponent }]
      else [] := by
  unfold missingVariables
  split at hk
  · next hcomposite =>
    obtain ⟨hvariables, hcomponents⟩ := Class.members_of_installComposite hnone hk
    rw [if_pos hcomposite, if_pos hcomposite, ← hnames, ← hc.slot_eq]
    exact ⟨Class.functions_of_installComposite hk, hvariables, hcomponents⟩
  · next hplain =>
    cases hk
    rw [if_neg hplain, if_neg hplain, hnone]
    exact ⟨rfl, (List.append_nil _).symm, rfl⟩

/-- **What an accepted definition makes.** -/
theorem makes_of_build (h : d.build r o = .ok c) : d.Makes r o c := by
  obtain ⟨-, supers, declared, installed, n, k, hsupers, hdeclared, hinstall, hk, rfl⟩ :=
    build_eq_ok_iff.mp h
  obtain ⟨-, -, rfl⟩ := (findSupers_eq_ok_iff List.nodup_nil).mp hsupers
  have hbare := grows_of_declareMembers hdeclared
  have hinstalled : declared.Grows installed := Class.grows_of_installEach hinstall
  have hcomposite : installed.Grows k := by
    split at hk
    · exact Class.grows_of_installComposite hk
    · cases hk
      exact .refl _
  have hformed := hbare.formed (d.formed_bare r _)
  obtain ⟨-, hvariables, hnone⟩ := members_of_declareMembers hdeclared
  have hvariables : declared.ownVariables.toList =
      d.members.filterMap (MemberDecl.toVariable? declared) := hvariables
  obtain ⟨hfunctions, hsame, hsameComponents⟩ := functions_of_installBuiltins hdeclared hinstall
  have hnames : installed.ownVariables.names = d.variableNames := by
    rw [hsame, hformed.ownVariables.names_eq, hvariables, map_name_toVariable?]
  obtain ⟨hkFunctions, hkVariables, hkComponents⟩ := members_of_composite
    (hinstalled.formed hformed) (hsameComponents.trans hnone) hnames hk
  -- the class that is made has the number and the name of the bare one
  have hgrows := hinstalled.trans hcomposite
  have hid : (k.resolved r).id = declared.id := hgrows.id_eq
  have hname : (k.resolved r).fullName = declared.fullName := hgrows.fullName_eq
  have hheritage : (k.resolved r).heritage = declared.heritage := hgrows.heritage_eq
  refine ⟨hid.trans hbare.id_eq, hname.trans hbare.fullName_eq,
    hgrows.supers_eq.trans hbare.supers_eq, hgrows.flags_eq.trans hbare.flags_eq, ?_, ?_, ?_, ?_,
    k.resolved_resolved r⟩
  · rw [hheritage, hbare.heritage_eq, hid, hbare.id_eq]
    show r.linearize r.nextId _ = r.linearize r.nextId k.supers
    rw [hgrows.supers_eq, hbare.supers_eq]
    rfl
  · show k.functions.toList = _
    rw [hkFunctions, hfunctions, funext (MemberDecl.toFunction?_congr hid hname),
      Class.builtinFunction_congr hid hname, missingBuiltins, missingBuiltins, hheritage]
  · show k.ownVariables.toList = _
    rw [hkVariables, hsame, hvariables, funext (MemberDecl.toVariable?_congr hid hname),
      Class.protectedVariable_congr hid hname,
      Class.protectedVariable_congr hinstalled.id_eq hinstalled.fullName_eq]
  · show k.components.toList = _
    rw [hkComponents, hid, ← hinstalled.id_eq]
    simp only [Class.memberName, hname, ← hinstalled.fullName_eq]

end ClassDecl

theorem defineClass_eq_of_error {d : ClassDecl Expr} {s : State} {e : DispatchError}
    (h : d.build s.world.registry s.world.options = .error e) :
    defineClass d s = (.failure e, s) := by
  unfold defineClass
  rw [Run.look_bind_of_error h]

/-- A definition that succeeds registers the class that it builds. -/
theorem defineClass_eq_value_iff {d : ClassDecl Expr} {s t : State} {id : ClassId} :
    defineClass d s = (.value id, t) ↔
      ∃ c, d.build s.world.registry s.world.options = .ok c ∧ id = c.id ∧
        t = s.after (.classRegistered c) := by
  cases hbuild : d.build s.world.registry s.world.options with
  | ok c =>
    have hrun : defineClass d s = (.value c.id, s.after (.classRegistered c)) := by
      unfold defineClass
      rw [Run.look_bind_of_ok hbuild]
      rfl
    simp [hrun, eq_comm]
  | error e => simp [defineClass_eq_of_error hbuild]

/-- **What becomes of a definition**, in any state of an interpreter.  It succeeds exactly
when it is acceptable.  Then one class is added to the registry, the class that it makes,
and nothing else changes; otherwise nothing changes at all.  The installation of builtin
methods is not refused to any class that stands in its own heritage, and that of the hull
and the options variable to no class. -/
theorem class_of_definition (d : ClassDecl Expr) (s : State) :
    let r := s.world.registry
    let o := s.world.options
    ((∃ id t, defineClass d s = (.value id, t)) ↔ d.Acceptable r) ∧
    (∀ id t, defineClass d s = (.value id, t) → ∃ c, d.Makes r o c ∧ id = c.id ∧
      t.world = { s.world with registry := ⟨r.classes ++ [c]⟩ }) ∧
    (¬ d.Acceptable r → ∃ e, defineClass d s = (.failure e, s)) ∧
    (∀ c : Class, c.id ∈ c.heritage → ∃ c' n, c.installBuiltins r o = (c', .ok n)) ∧
    ∀ c : Class, ∃ c', c.installComposite o = .ok c' := by
  intro r o
  refine ⟨?_, ?_, ?_, ?_, fun c => c.exists_installComposite o⟩
  · rw [← ClassDecl.exists_build_iff (o := o)]
    simp only [defineClass_eq_value_iff]
    constructor
    · rintro ⟨_, _, c, hc, -, -⟩
      exact ⟨c, hc⟩
    · rintro ⟨c, hc⟩
      exact ⟨c.id, _, c, hc, rfl, rfl⟩
  · intro id t h
    obtain ⟨c, hc, rfl, rfl⟩ := defineClass_eq_value_iff.mp h
    exact ⟨c, ClassDecl.makes_of_build hc, rfl, rfl⟩
  · intro h
    cases hbuild : d.build r o with
    | ok c => exact absurd (ClassDecl.exists_build_iff.mp ⟨c, hbuild⟩) h
    | error e => exact ⟨e, defineClass_eq_of_error hbuild⟩
  · intro c hself
    obtain ⟨c', n, hinstall, -⟩ := c.exists_installBuiltins hself r o
    exact ⟨c', n, hinstall⟩

/-- The definition of a widget that has a `cget` of its own. -/
def panelDecl : ClassDecl Expr :=
  { name := "ui::Panel", kind := .widget
    members := [.method "cget" .pub (.const (.str "mine")), .var "label" .pub none] }

/-- A state in which the hull and the options of widgets are kept under one name. -/
def sharedNameState : State :=
  { world := World.initial { hullComponent := "slot", optionsVariable := "slot" } }

/-- The widget gets the three builtin methods that it does not declare, and one variable
for its hull and its options.  With two variables of one name it is refused. -/
theorem class_of_panel :
    (∃ (c : Class) (t : State), defineClass panelDecl sharedNameState = (.value c.id, t) ∧
      c.functions.toList.map (·.name) = ["cget", "configure", "info", "isa"] ∧
      c.ownVariables.toList.map (·.name) = ["label", "slot"] ∧
      c.components.toList.map (·.store) = ["::ui::Panel::slot"]) ∧
    ∃ e, defineClass { panelDecl with members := panelDecl.members ++ panelDecl.members }
      sharedNameState = (.failure e, sharedNameState) := by
  constructor
  · obtain ⟨haccepted, hmakes, -⟩ := class_of_definition panelDecl sharedNameState
    obtain ⟨id, t, ht⟩ := haccepted.mpr (by decide)
    obtain ⟨c, hc, rfl, -⟩ := hmakes id t ht
    refine ⟨c, t, ht, ?_, ?_, ?_⟩
    · have hheritage : c.heritage = [⟨0⟩] := by
        rw [hc.heritage_eq, hc.supers_eq, hc.id_eq]
        decide
      rw [hc.functions_eq, List.map_append, ClassDecl.map_name_toFunction?,
        ClassDecl.missingBuiltins, hheritage]
      rfl
    · rw [hc.variables_eq, List.map_append, ClassDecl.map_name_toVariable?]
      rfl
    · have hcomposite : panelDecl.kind.isComposite = true := rfl
      rw [hc.components_eq, if_pos hcomposite, List.map_singleton, Class.memberName,
        hc.fullName_eq]
      show [Name.member panelDecl.fullName "slot"] = _
      decide
  · obtain ⟨-, -, hrefused, -⟩ := class_of_definition
      { panelDecl with members := panelDecl.members ++ panelDecl.members } sharedNameState
    exact hrefused (by decide)

end ObjectDispatch
