import Mathlib.Data.List.Induction
import Mathlib.Data.List.Nodup
import Mathlib.Data.Set.Card
import ObjectDispatch.Proofs.Heritage
import ObjectDispatch.Proofs.Naming

/-!
# What names mean

The tables of a class are made member by member, and each member takes the
spellings that are left.  In the end a name means the first member that has it
among its spellings: classes in heritage order, and the members of one class in
the order of their creation.

When a variable is entered it is not known yet which members come later, but none
of them takes away a spelling.  So what is recorded with the variable then, its
least name and the number of its names, is right in the finished table.

## Main definitions

* `Registry.variablesOf`, `Registry.functionsOf` — the members of a heritage.
* `spellingsLeft` — the spellings of a variable that no earlier one has.
* `VarLookup.EnteredAfter` — what is recorded with a variable.
* `Class.Means` — a name and the variable that it means.

## Main results

* `find?_foldl_claimVariable`, `find?_foldl_claimFunction` — **the first that has a
  name gets it.**
* `Class.means_iff` — the names that mean a variable.
* `names_of_built` — **what names mean in a class that was defined.**
-/

namespace ObjectDispatch

/-! ### Taking names -/

namespace NameMap

variable {α : Type}

/-- Inserting one thing under several names. -/
theorem find?_foldl_insert (ns : List String) (a : α) (m : NameMap α) (k : String) :
    (ns.foldl (fun t n => t.insert n a) m).find? k = if k ∈ ns then some a else m.find? k := by
  induction ns generalizing m with
  | nil => simp
  | cons n ns ih =>
    rw [List.foldl_cons, ih, find?_insert]
    by_cases hk : k ∈ ns
    · simp [hk]
    · by_cases hn : k = n <;> simp [hk, hn]

/-- Claiming several names for one thing. -/
theorem find?_foldl_claim (ns : List String) (a : α) (m : NameMap α) (k : String) :
    (ns.foldl (fun t n => t.claim n a) m).find? k =
      (m.find? k).or (if k ∈ ns then some a else none) := by
  induction ns generalizing m with
  | nil => simp
  | cons n ns ih =>
    rw [List.foldl_cons, ih, find?_claim]
    by_cases hn : k = n
    · subst hn
      cases m.find? k <;> simp
    · simp [hn]

end NameMap

/-! ### Functions -/

/-- A name that the table lacks goes to the function if it is a spelling of it. -/
theorem find?_claimFunction (t : NameMap MemberFunction) (f : MemberFunction) (n : String) :
    (claimFunction t f).find? n =
      (t.find? n).or
        (if !f.isLifecycle && n ∈ Name.spellings f.fullName then some f else none) := by
  unfold claimFunction
  cases f.isLifecycle with
  | true => simp
  | false => simp [NameMap.find?_foldl_claim]

/-- **The first function that has a name gets it.** -/
theorem find?_foldl_claimFunction (fs : List MemberFunction) (n : String) :
    (fs.foldl claimFunction .empty).find? n =
      fs.find? fun f => !f.isLifecycle && n ∈ Name.spellings f.fullName := by
  induction fs using List.reverseRecOn with
  | nil => rfl
  | append_singleton fs f ih =>
    rw [List.foldl_concat, find?_claimFunction, ih, List.find?_append]
    congr 1
    rw [List.find?_singleton]

/-! ### Variables -/

/-- The spellings of `v` that no variable of `earlier` has. -/
def spellingsLeft (earlier : List Variable) (v : Variable) : List String :=
  (Name.spellings v.fullName).filter fun n =>
    earlier.all fun u => n ∉ Name.spellings u.fullName

/-- The variables with their tables, as seen from the class `viewer`. -/
def variableTable (viewer : ClassId) (vs : List Variable) : NameMap VarLookup :=
  vs.foldl (claimVariable viewer) .empty

/-- The entry records the variable `v` as it is seen from `viewer` when it comes
after the variables `earlier`. -/
structure VarLookup.EnteredAfter (e : VarLookup) (viewer : ClassId) (earlier : List Variable)
    (v : Variable) : Prop where
  var_eq : e.var = v
  least : (spellingsLeft earlier v).head? = some e.leastName
  usage : e.usage = (spellingsLeft earlier v).length
  accessible : e.accessible = (v.protection ≠ .priv || v.owner = viewer)

/-- A name that the table lacks goes to the variable if it is a spelling of it,
with what is recorded of the spellings that the table lacks. -/
theorem find?_claimVariable (viewer : ClassId) (t : NameMap VarLookup) (v : Variable)
    (n : String) :
    (claimVariable viewer t v).find? n =
      (t.find? n).or
        (if n ∈ Name.spellings v.fullName then
          some
            { var := v
              leastName := ((Name.spellings v.fullName).filter (!t.contains ·)).headD ""
              usage := ((Name.spellings v.fullName).filter (!t.contains ·)).length
              accessible := v.protection ≠ .priv || v.owner = viewer }
        else none) := by
  have hfree : n ∈ (Name.spellings v.fullName).filter (!t.contains ·) ↔
      n ∈ Name.spellings v.fullName ∧ t.find? n = none := by
    simp [List.mem_filter, NameMap.contains]
  -- the variable is recorded under the spellings that are left, if there are any
  unfold claimVariable
  cases hleft : (Name.spellings v.fullName).filter (!t.contains ·) with
  | nil =>
    rw [hleft] at hfree
    cases ht : t.find? n with
    | some e => rfl
    | none =>
      have hn : n ∉ Name.spellings v.fullName := by simpa [ht] using hfree
      simp [hn]
  | cons least others =>
    rw [hleft] at hfree
    simp only [NameMap.find?_foldl_insert, hfree]
    cases ht : t.find? n with
    | some e => simp
    | none => simp

section Table

variable (viewer : ClassId) (vs : List Variable)

/-- **The first variable that has a name gets it.** -/
theorem find?_foldl_claimVariable (n : String) :
    ((variableTable viewer vs).find? n).map (·.var) =
      vs.find? fun v => n ∈ Name.spellings v.fullName := by
  induction vs using List.reverseRecOn with
  | nil => rfl
  | append_singleton vs v ih =>
    rw [variableTable, List.foldl_concat, ← variableTable, find?_claimVariable,
      List.find?_append, ← ih, List.find?_singleton]
    cases (variableTable viewer vs).find? n with
    | some e => rfl
    | none => by_cases hn : n ∈ Name.spellings v.fullName <;> simp [hn]

/-- The spellings that the table lacks are those that no variable has. -/
theorem filter_not_contains_eq (v : Variable) :
    (Name.spellings v.fullName).filter (!(variableTable viewer vs).contains ·) =
      spellingsLeft vs v := by
  refine List.filter_congr fun n _ => ?_
  have h := find?_foldl_claimVariable viewer vs n
  unfold NameMap.contains
  rw [Bool.eq_iff_iff]
  cases ht : (variableTable viewer vs).find? n with
  | some e =>
    rw [ht] at h
    simpa using ⟨e.var, List.mem_of_find?_eq_some h.symm,
      by simpa using List.find?_some h.symm⟩
  | none =>
    rw [ht] at h
    simpa using h.symm

/-- What the table holds under a name was entered for one of the variables, after
the earlier ones. -/
theorem exists_enteredAfter {n : String} {e : VarLookup}
    (h : (variableTable viewer vs).find? n = some e) :
    ∃ earlier later, vs = earlier ++ e.var :: later ∧ e.EnteredAfter viewer earlier e.var := by
  induction vs using List.reverseRecOn with
  | nil => cases h
  | append_singleton vs v ih =>
    have hleft := filter_not_contains_eq viewer vs v
    rw [variableTable, List.foldl_concat, ← variableTable, find?_claimVariable,
      Option.or_eq_some_iff] at h
    rcases h with h | ⟨hnone, h⟩
    · -- later variables leave the entry as it is
      obtain ⟨earlier, later, hvs, he⟩ := ih h
      refine ⟨earlier, later ++ [v], ?_, he⟩
      rw [hvs, List.append_assoc, List.cons_append]
    · split at h
      · next hn =>
        have hmem : n ∈ spellingsLeft vs v := by
          rw [← hleft]
          simp [List.mem_filter, NameMap.contains, hn, hnone]
        cases h
        refine ⟨vs, [], rfl, rfl, ?_, by rw [hleft], rfl⟩
        obtain ⟨least, others, hcons⟩ := List.exists_cons_of_ne_nil (List.ne_nil_of_mem hmem)
        simp [hleft, hcons]
      · cases h

end Table

/-- Where no variable comes twice, the first variable that has a name is `v` when
the name is a spelling that the earlier ones have left to it. -/
theorem find?_eq_some_iff_mem_spellingsLeft {earlier later : List Variable} {v : Variable}
    (hnodup : (earlier ++ v :: later).Nodup) {n : String} :
    (earlier ++ v :: later).find? (fun u => n ∈ Name.spellings u.fullName) = some v ↔
      n ∈ spellingsLeft earlier v := by
  have hmem : n ∈ spellingsLeft earlier v ↔
      n ∈ Name.spellings v.fullName ∧ ∀ u ∈ earlier, n ∉ Name.spellings u.fullName := by
    simp [spellingsLeft, List.mem_filter]
  rw [hmem]
  constructor
  · intro h
    refine ⟨by simpa using List.find?_some h, fun u hu hnu => ?_⟩
    -- an earlier variable would be found first
    obtain ⟨x, hx⟩ : ∃ x, earlier.find? (fun u => n ∈ Name.spellings u.fullName) = some x :=
      Option.isSome_iff_exists.mp (List.find?_isSome.mpr ⟨u, hu, by simpa using hnu⟩)
    rw [List.find?_append, hx, Option.some_or, Option.some.injEq] at h
    subst h
    exact (List.nodup_append.mp hnodup).2.2 x (List.mem_of_find?_eq_some hx) x
      List.mem_cons_self rfl
  · rintro ⟨hv, hearlier⟩
    have hnone : earlier.find? (fun u => n ∈ Name.spellings u.fullName) = none := by
      simpa using hearlier
    rw [List.find?_append, hnone, Option.none_or, List.find?_cons_of_pos (by simpa using hv)]

/-! ### Members of a heritage -/

namespace Registry

/-- The variables of the heritage of a class: classes in heritage order, and the
variables of one class in the order of their creation. -/
def variablesOf (r : Registry) (c : Class) : List Variable :=
  (c.heritage.filterMap r.get?).flatMap (·.ownVariables.toList)

/-- The functions of the heritage of a class: classes in heritage order, and the
functions of one class in the order of their creation. -/
def functionsOf (r : Registry) (c : Class) : List MemberFunction :=
  (c.heritage.filterMap r.get?).flatMap (·.functions.toList)

variable {o : EngineOptions} {r : Registry} {id : ClassId} {c : Class}

/-- What the classes of a heritage have together, one of them has. -/
theorem mem_flatMap_heritage_iff {α : Type} {g : Class → List α} {a : α} :
    a ∈ (c.heritage.filterMap r.get?).flatMap g ↔
      ∃ k ∈ c.heritage, ∃ d, r.get? k = some d ∧ a ∈ g d := by
  simp only [List.mem_flatMap, List.mem_filterMap]
  constructor
  · rintro ⟨d, ⟨k, hk, hd⟩, ha⟩
    exact ⟨k, hk, d, hd, ha⟩
  · rintro ⟨k, hk, d, hd, ha⟩
    exact ⟨d, ⟨k, hk, hd⟩, ha⟩

theorem mem_variablesOf_iff {v : Variable} :
    v ∈ r.variablesOf c ↔
      ∃ k ∈ c.heritage, ∃ d, r.get? k = some d ∧ v ∈ d.ownVariables.toList :=
  mem_flatMap_heritage_iff

theorem mem_functionsOf_iff {f : MemberFunction} :
    f ∈ r.functionsOf c ↔ ∃ k ∈ c.heritage, ∃ d, r.get? k = some d ∧ f ∈ d.functions.toList :=
  mem_flatMap_heritage_iff

namespace Built

/-- The members of a registered class belong to it. -/
theorem formed (hr : r.Built o) (hc : r.get? id = some c) : c.Formed := by
  obtain ⟨r₀, -, -, hmade, -⟩ := hr.exists_madeIn hc
  exact hmade.formed

/-- The classes that the tables of a class were made from are those of its
heritage. -/
theorem exists_lineage_eq (hr : r.Built o) (hc : r.get? id = some c) :
    ∃ r₀, c.resolved r₀ = c ∧ c.lineage r₀ = c.heritage.filterMap r.get? := by
  obtain ⟨r₀, -, hid, hmade, hgrows⟩ := hr.exists_madeIn hc
  refine ⟨r₀, hmade.resolved_eq, List.filterMap_congr fun k hk => ?_⟩
  have hcid := hr.id_eq hc
  by_cases hkid : k = c.id
  · rw [if_pos hkid, hkid, hcid, hc]
  · -- an ancestor was registered before the class was made
    rw [if_neg hkid]
    have hlt := hr.index_lt_of_mem_heritage hc hk (by rwa [hcid] at hkid)
    have hsome : (r₀.get? k).isSome := by
      rw [isSome_get?_iff, hid]
      exact hlt
    obtain ⟨d, hd⟩ := Option.isSome_iff_exists.mp hsome
    rw [hd, ((growsTo_register r₀ c).trans hgrows).get? hd]

theorem varNames_eq (hr : r.Built o) (hc : r.get? id = some c) :
    c.varNames = variableTable c.id (r.variablesOf c) := by
  obtain ⟨r₀, hresolved, hlineage⟩ := hr.exists_lineage_eq hc
  rw [variablesOf, ← hlineage]
  exact (congrArg Class.varNames hresolved).symm

theorem functionNames_eq (hr : r.Built o) (hc : r.get? id = some c) :
    c.functionNames = (r.functionsOf c).foldl claimFunction .empty := by
  obtain ⟨r₀, hresolved, hlineage⟩ := hr.exists_lineage_eq hc
  rw [functionsOf, ← hlineage]
  exact (congrArg Class.functionNames hresolved).symm

/-- A variable of a heritage is owned by the class that has it. -/
theorem owner_eq (hr : r.Built o) {k : ClassId} {d : Class} (hd : r.get? k = some d)
    {v : Variable} (hv : v ∈ d.ownVariables.toList) : v.owner = k := by
  rw [((hr.formed hd).ownVariables.all v hv).owner_eq, hr.id_eq hd]

/-- No variable comes twice in a heritage. -/
theorem nodup_variablesOf (hr : r.Built o) (hc : r.get? id = some c) :
    (r.variablesOf c).Nodup := by
  unfold variablesOf
  rw [List.nodup_flatMap]
  constructor
  · -- within one class the names are distinct
    intro d hd
    obtain ⟨k, -, hk⟩ := List.mem_filterMap.mp hd
    exact (hr.formed hk).ownVariables.nodup.of_map
  · -- the variables of two classes have different owners
    rw [List.pairwise_filterMap]
    refine (hr.nodup_heritage hc).imp fun {a b} hab d hd e he v hvd hve => ?_
    exact hab ((hr.owner_eq hd hvd).symm.trans (hr.owner_eq he hve))

end Built

end Registry

/-! ### Names in a class -/

namespace Class

/-- In the class the name `n` means the variable `v`. -/
def Means (c : Class) (n : String) (v : Variable) : Prop :=
  (c.resolveVar? n).map (·.var) = some v

variable {o : EngineOptions} {r : Registry} {id : ClassId} {c : Class}

theorem map_resolveVar? (hr : r.Built o) (hc : r.get? id = some c) (n : String) :
    (c.resolveVar? n).map (·.var) =
      (r.variablesOf c).find? fun v => n ∈ Name.spellings v.fullName := by
  unfold resolveVar?
  rw [hr.varNames_eq hc, find?_foldl_claimVariable]

theorem resolveFunction?_eq_find? (hr : r.Built o) (hc : r.get? id = some c) (n : String) :
    c.resolveFunction? n =
      (r.functionsOf c).find? fun f => !f.isLifecycle && n ∈ Name.spellings f.fullName := by
  unfold resolveFunction?
  rw [hr.functionNames_eq hc, find?_foldl_claimFunction]

/-- **The names that mean a variable** are the spellings that the earlier variables
of the heritage have left to it. -/
theorem means_iff (hr : r.Built o) (hc : r.get? id = some c) {earlier later : List Variable}
    {v : Variable} (hvs : r.variablesOf c = earlier ++ v :: later) {n : String} :
    c.Means n v ↔ n ∈ spellingsLeft earlier v := by
  have hnodup := hr.nodup_variablesOf hc
  unfold Means
  rw [map_resolveVar? hr hc, hvs]
  rw [hvs] at hnodup
  exact find?_eq_some_iff_mem_spellingsLeft hnodup

theorem exists_enteredAfter_of_resolveVar? (hr : r.Built o) (hc : r.get? id = some c)
    {n : String} {e : VarLookup} (he : c.resolveVar? n = some e) :
    ∃ earlier later, r.variablesOf c = earlier ++ e.var :: later ∧
      e.EnteredAfter c.id earlier e.var := by
  unfold resolveVar? at he
  rw [hr.varNames_eq hc] at he
  exact exists_enteredAfter c.id _ he

theorem mem_variablesOf_of_resolveVar? (hr : r.Built o) (hc : r.get? id = some c) {n : String}
    {e : VarLookup} (he : c.resolveVar? n = some e) : e.var ∈ r.variablesOf c := by
  obtain ⟨earlier, later, hvs, -⟩ := exists_enteredAfter_of_resolveVar? hr hc he
  rw [hvs]
  exact List.mem_append_right earlier List.mem_cons_self

/-- The least name of a variable is the first spelling that means it. -/
theorem leastName_spec (hr : r.Built o) (hc : r.get? id = some c) {n : String} {e : VarLookup}
    (he : c.resolveVar? n = some e) :
    ∃ before after, Name.spellings e.var.fullName = before ++ e.leastName :: after ∧
      c.Means e.leastName e.var ∧ ∀ m ∈ before, ¬ c.Means m e.var := by
  obtain ⟨earlier, later, hvs, hentered⟩ := exists_enteredAfter_of_resolveVar? hr hc he
  have hmeans {m : String} := means_iff hr hc hvs (n := m)
  have hleast := hentered.least
  unfold spellingsLeft at hleast
  rw [List.head?_filter, List.find?_eq_some_iff_append] at hleast
  obtain ⟨hleast, before, after, hspellings, hbefore⟩ := hleast
  have hmem : e.leastName ∈ Name.spellings e.var.fullName := by
    rw [hspellings]
    exact List.mem_append_right before List.mem_cons_self
  refine ⟨before, after, hspellings, hmeans.mpr (List.mem_filter.mpr ⟨hmem, hleast⟩), ?_⟩
  intro m hm hmv
  have hleft := (List.mem_filter.mp (hmeans.mp hmv)).2
  have hnot := hbefore m hm
  rw [hleft] at hnot
  cases hnot

/-- The usage of a variable is the number of names that mean it. -/
theorem usage_eq_ncard (hr : r.Built o) (hc : r.get? id = some c) {n : String} {e : VarLookup}
    (he : c.resolveVar? n = some e) : e.usage = {m | c.Means m e.var}.ncard := by
  obtain ⟨earlier, later, hvs, hentered⟩ := exists_enteredAfter_of_resolveVar? hr hc he
  have hnodup : (spellingsLeft earlier e.var).Nodup := (Name.nodup_spellings _).filter _
  have hset : {m | c.Means m e.var} = ↑(spellingsLeft earlier e.var).toFinset := by
    ext m
    rw [Set.mem_ofPred_eq, means_iff hr hc hvs, Finset.mem_coe, List.mem_toFinset]
  rw [hset, Set.ncard_coe_finset, List.toFinset_card_of_nodup hnodup, hentered.usage]

/-- A variable is out of reach for the code of the class when it is private and
another class has it. -/
theorem accessible_eq_false_iff (hr : r.Built o) (hc : r.get? id = some c) {n : String}
    {e : VarLookup} (he : c.resolveVar? n = some e) :
    e.accessible = false ↔ e.var.protection = .priv ∧ e.var ∉ c.ownVariables.toList := by
  obtain ⟨earlier, later, -, hentered⟩ := exists_enteredAfter_of_resolveVar? hr hc he
  obtain ⟨k, -, d, hd, hv⟩ :=
    Registry.mem_variablesOf_iff.mp (mem_variablesOf_of_resolveVar? hr hc he)
  have howner : e.var.owner = c.id ↔ e.var ∈ c.ownVariables.toList := by
    rw [hr.id_eq hc]
    constructor
    · intro h
      rw [hr.owner_eq hd hv] at h
      subst h
      cases hc.symm.trans hd
      exact hv
    · exact hr.owner_eq hc
  rw [hentered.accessible, Bool.or_eq_false_iff, decide_eq_false_iff_not, decide_eq_false_iff_not,
    not_not, howner]

end Class

/-- **What names mean in a class that was defined**, whatever the names of its
classes and members are.  The name of a variable means the first variable of the
heritage that has it among its spellings; recorded with the variable are the first
of its spellings that means it, the number of names that mean it, and whether the
class may use it.  The name of a function means the first function of the heritage
that has it among its spellings and does not take part in the lifecycle. -/
theorem names_of_built {o : EngineOptions} {r : Registry} (hr : r.Built o) {id : ClassId}
    {c : Class} (hc : r.get? id = some c) (n : String) :
    (c.resolveVar? n).map (·.var) =
      (r.variablesOf c).find? (fun v => n ∈ Name.spellings v.fullName) ∧
    (∀ e, c.resolveVar? n = some e →
      (∃ before after, Name.spellings e.var.fullName = before ++ e.leastName :: after ∧
        c.Means e.leastName e.var ∧ ∀ m ∈ before, ¬ c.Means m e.var) ∧
      e.usage = {m | c.Means m e.var}.ncard ∧
      (e.accessible = false ↔ e.var.protection = .priv ∧ e.var ∉ c.ownVariables.toList)) ∧
    c.resolveFunction? n =
      (r.functionsOf c).find? (fun f => !f.isLifecycle && n ∈ Name.spellings f.fullName) := by
  refine ⟨Class.map_resolveVar? hr hc n, fun e he => ?_, ?_⟩
  · exact ⟨Class.leastName_spec hr hc he, Class.usage_eq_ncard hr hc he,
      Class.accessible_eq_false_iff hr hc he⟩
  · unfold Class.resolveFunction?
    rw [hr.functionNames_eq hc, find?_foldl_claimFunction]

/-- Defines a class and one that inherits from it, each with variables of the same
names, and creates an object of the second. -/
def shadowing : Expr :=
  .sequence [
    .defineClass
      { name := "ui::Base"
        members := [.var "color" .priv none, .var "size" .pub (some (.int 3))] },
    .defineClass
      { name := "Derived", inherits := ["ui::Base"]
        members := [.var "color" .pub none, .var "size" .pub none] },
    .create (some (.const (.str "Derived"))) (.const (.str "d")) []]

/-- The world after the definition of the two classes. -/
def shadowingWorld : World := (Session.step 0 (World.initial {}) shadowing).2.world

theorem shadowingWorld_reachable : Session.Reachable {} shadowingWorld :=
  (Session.Between.next shadowing .start (by decide +kernel)).reachable

/-- The variable that is shadowed keeps its qualified names, and no code of the
derived class may use it. -/
theorem names_of_shadowing :
    ∃ c e, shadowingWorld.registry.get? ⟨1⟩ = some c ∧ c.resolveVar? "Base::color" = some e ∧
      e.leastName = "Base::color" ∧ {m | c.Means m e.var}.ncard = 3 ∧
      e.var.protection = .priv ∧ e.var ∉ c.ownVariables.toList := by
  have hentry : ((shadowingWorld.registry.get? ⟨1⟩).bind (·.resolveVar? "Base::color")).map
      (fun e => (e.leastName, e.usage, e.accessible)) = some ("Base::color", 3, false) := by
    decide +kernel
  obtain ⟨e, he, hparts⟩ := Option.map_eq_some_iff.mp hentry
  obtain ⟨c, hc, he⟩ := Option.bind_eq_some_iff.mp he
  simp only [Prod.mk.injEq] at hparts
  obtain ⟨hleast, husage, haccessible⟩ := hparts
  obtain ⟨-, hrecorded, -⟩ := names_of_built shadowingWorld_reachable.built hc "Base::color"
  obtain ⟨-, hncard, hinaccessible⟩ := hrecorded e he
  obtain ⟨hpriv, hown⟩ := hinaccessible.mp haccessible
  exact ⟨c, e, hc, he, hleast, hncard ▸ husage, hpriv, hown⟩

end ObjectDispatch
