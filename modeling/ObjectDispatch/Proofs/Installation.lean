import Mathlib.Data.List.Find
import ObjectDispatch.Proofs.Destructors
import ObjectDispatch.Proofs.History

/-!
# Where builtin methods come from

A class gets a builtin method only if no class of its heritage defines a function of
that name.  So every class has one of each name in its heritage, its own or an inherited
one; and since the same holds of its superclasses, only a class that has none can get
the method installed, and only if it does not declare the function itself.

A class does not keep the definition that made it.  Here it is a definition that makes
the class in the registry as it was before.

## Main definitions

* `Registry.before`, `Registry.DefinedBy` — the definition of a class.
* `ClassDecl.DeclaresFunction` — the functions that a definition declares.
* `Class.HasInstalled` — a builtin method that was installed.
* `Class.WordNamed` — a class whose functions are named by words.

## Main results

* `ClassDecl.function?_of_build` — what a definition makes of the name of a builtin
  method.
* `Registry.Built.exists_provider` — every heritage has the builtin methods.
* `Class.resolveFunction?_eq` — **a word means the first function of that name.**
* `builtins_of_class` — all of it, at every moment of every session.
-/

namespace ObjectDispatch

/-! ### Functions by name -/

/-- Where at most one element is looked for, it is found. -/
theorem find?_eq_of_forall_iff {α : Type} {p : α → Bool} {as : List α} {x : Option α}
    (h : ∀ a, x = some a ↔ a ∈ as ∧ p a = true) : as.find? p = x := by
  cases hfind : as.find? p with
  | some a => exact ((h a).mpr ⟨List.mem_of_find?_eq_some hfind, List.find?_some hfind⟩).symm
  | none =>
    rw [List.find?_eq_none] at hfind
    rw [eq_comm, Option.eq_none_iff_forall_ne_some]
    intro a ha
    obtain ⟨hmem, hp⟩ := (h a).mp ha
    exact hfind a hmem hp

namespace MemberTable.Holds

variable {α : Type} {t : MemberTable α} {name : α → String} {P : α → Prop}

/-- What is found under a name is the member of that name. -/
theorem get?_eq_some_iff (ht : t.Holds name P) {n : String} {a : α} :
    t.get? n = some a ↔ a ∈ t.toList ∧ name a = n := by
  constructor
  · intro h
    exact ⟨mem_toList_of_get? h, ht.name_eq h⟩
  · rintro ⟨ha, rfl⟩
    obtain ⟨⟨m, b⟩, hentry, rfl⟩ := List.mem_map.mp ha
    have hget : t.get? m = some b := MemberTable.get?_eq_some_iff.mpr hentry
    rw [ht.name_eq hget, hget]

theorem find?_toList (ht : t.Holds name P) (n : String) :
    t.toList.find? (fun a => name a = n) = t.get? n := by
  refine find?_eq_of_forall_iff fun a => ?_
  rw [ht.get?_eq_some_iff, decide_eq_true_eq]

end MemberTable.Holds

namespace Class

variable {c c' : Class} {n : String}

theorem hasFunction_iff : c.hasFunction n = true ↔ ∃ f, c.function? n = some f := by
  unfold hasFunction MemberTable.contains MemberTable.names function?
  rw [List.contains_iff_mem]
  simp only [List.mem_map, Prod.exists, exists_and_right, exists_eq_right,
    MemberTable.get?_eq_some_iff]

theorem functions_of_addVariable {v : Variable} (h : c.addVariable v = .ok c') :
    c'.functions = c.functions := by
  obtain ⟨t, -, rfl⟩ := addVariable_eq_ok_iff.mp h
  rfl

theorem functions_of_addComponent {k : Component} (h : c.addComponent k = .ok c') :
    c'.functions = c.functions := by
  obtain ⟨t, -, rfl⟩ := addComponent_eq_ok_iff.mp h
  rfl

/-- A composite class gets variables and a component, and no functions. -/
theorem functions_of_installComposite {o : EngineOptions}
    (h : c.installComposite o = .ok c') : c'.functions = c.functions := by
  obtain ⟨⟨k, b⟩, hk, h⟩ := bind_eq_ok_iff.mp h
  obtain ⟨⟨k', b'⟩, hk', h⟩ := bind_eq_ok_iff.mp h
  cases h
  -- the component is declared unless there is one; its variable may be there already
  have hcomponent : k.functions = c.functions := by
    unfold installComponent at hk
    split at hk
    · cases hk
      rfl
    · cases hvar : c.ownVariable? o.hullComponent with
      | some x =>
        simp only [hvar] at hk
        obtain ⟨d, hd, hk⟩ := bind_eq_ok_iff.mp hk
        cases hd
        obtain ⟨e, he, hk⟩ := bind_eq_ok_iff.mp hk
        cases hk
        exact functions_of_addComponent he
      | none =>
        simp only [hvar] at hk
        obtain ⟨d, hd, hk⟩ := bind_eq_ok_iff.mp hk
        obtain ⟨e, he, hk⟩ := bind_eq_ok_iff.mp hk
        cases hk
        exact (functions_of_addComponent he).trans (functions_of_addVariable hd)
  rw [← hcomponent]
  unfold installOptionsVariable at hk'
  split at hk'
  · cases hk'
    rfl
  · obtain ⟨d, hd, hk'⟩ := bind_eq_ok_iff.mp hk'
    cases hk'
    exact functions_of_addVariable hd

end Class

/-! ### Declared functions -/

/-- The name of the function that a member declares, if it declares one. -/
def MemberDecl.functionName? {Code : Type} : MemberDecl Code → Option String
  | .method n _ _ | .procedure n _ => some n
  | .ctor _ _ => some constructorName
  | .dtor _ => some destructorName
  | .var _ _ _ | .option _ _ _ => none

/-- The definition declares a function called `n`. -/
def ClassDecl.DeclaresFunction (d : ClassDecl Expr) (n : String) : Prop :=
  ∃ m ∈ d.members, m.functionName? = some n

instance (d : ClassDecl Expr) (n : String) : Decidable (d.DeclaresFunction n) :=
  inferInstanceAs (Decidable (∃ m ∈ d.members, m.functionName? = some n))

/-- What is declared has the name that it is declared by, and is no builtin method. -/
theorem MemberDecl.map_toFunction? (c : Class) (m : MemberDecl Expr) :
    (m.toFunction? c).map (fun f => (f.name, f.flags.isBuiltin)) =
      m.functionName?.map (·, false) := by
  cases m <;> rfl

theorem Class.toList_of_declareFunctions {c c' : Class} {fs : List MemberFunction}
    (h : fs.foldlM Class.declareFunction c = .ok c') :
    c'.functions.toList = c.functions.toList ++ fs := by
  have hstep (c : Class) (f : MemberFunction) (c' : Class) (h : c.declareFunction f = .ok c') :
      c'.functions.toList = c.functions.toList ++ [f] := by
    obtain ⟨t, ht, rfl⟩ := addFunction_eq_ok_iff.mp (declareFunction_eq_ok_iff.mp h).2
    exact MemberTable.toList_insert? ht
  rw [foldlM_append hstep h, List.map_id']

namespace ClassDecl

variable {d : ClassDecl Expr} {r : Registry} {o : EngineOptions} {c c' : Class}

/-- The functions of a class, before builtin methods are installed, are the declared
ones. -/
theorem toList_of_declareMembers (h : d.declareMembers c = .ok c') :
    c'.functions.toList = c.functions.toList ++ d.members.filterMap (MemberDecl.toFunction? c) := by
  obtain ⟨k, hk, h⟩ := bind_eq_ok_iff.mp h
  rw [← Class.toList_of_declareFunctions hk]
  refine foldlM_induct (I := fun e => e.functions.toList = k.functions.toList)
    (fun v _ e e' he h => ?_) rfl h
  rw [Class.functions_of_addVariable (Class.declareVariable_eq_ok_iff.mp h).2, he]

variable {supers : List ClassId} {f : MemberFunction} {n : String}

theorem mem_functions_of_declareMembers (h : d.declareMembers (d.bare r supers) = .ok c) :
    f ∈ c.functions.toList ↔ ∃ m ∈ d.members, m.toFunction? (d.bare r supers) = some f := by
  have hbare : (d.bare r supers).functions.toList = [] := rfl
  rw [toList_of_declareMembers h, hbare, List.nil_append, List.mem_filterMap]

/-- No declared function is a builtin method. -/
theorem isBuiltin_of_declareMembers (h : d.declareMembers (d.bare r supers) = .ok c)
    (hf : c.function? n = some f) : f.flags.isBuiltin = false := by
  obtain ⟨m, -, hm⟩ :=
    (mem_functions_of_declareMembers h).mp (MemberTable.mem_toList_of_get? hf)
  have hmap := m.map_toFunction? (d.bare r supers)
  rw [hm, Option.map_some] at hmap
  obtain ⟨_, -, hname⟩ := Option.map_eq_some_iff.mp hmap.symm
  exact (congrArg Prod.snd hname).symm

theorem hasFunction_of_declareMembers (h : d.declareMembers (d.bare r supers) = .ok c) :
    c.hasFunction n = true ↔ d.DeclaresFunction n := by
  have hformed := ((grows_of_declareMembers h).formed (d.formed_bare r supers)).functions
  rw [Class.hasFunction_iff]
  constructor
  · rintro ⟨f, hf⟩
    obtain ⟨hmem, rfl⟩ := hformed.get?_eq_some_iff.mp hf
    obtain ⟨m, hm, hfun⟩ := (mem_functions_of_declareMembers h).mp hmem
    have hmap := m.map_toFunction? (d.bare r supers)
    rw [hfun, Option.map_some] at hmap
    obtain ⟨k, hk, hname⟩ := Option.map_eq_some_iff.mp hmap.symm
    exact ⟨m, hm, hk.trans (congrArg some (congrArg Prod.fst hname))⟩
  · rintro ⟨m, hm, hname⟩
    have hmap := m.map_toFunction? (d.bare r supers)
    rw [hname, Option.map_some] at hmap
    obtain ⟨f, hf, hfn⟩ := Option.map_eq_some_iff.mp hmap
    have hmem := (mem_functions_of_declareMembers h).mpr ⟨m, hm, hf⟩
    exact ⟨f, hformed.get?_eq_some_iff.mpr ⟨hmem, congrArg Prod.fst hfn⟩⟩

end ClassDecl

/-! ### Installation -/

theorem Builtin.name_injective : Function.Injective Builtin.name := by
  intro a b h
  cases a <;> cases b <;> first | rfl | exact absurd h (by decide)

namespace Class

variable {r : Registry} {o : EngineOptions} {c c' : Class}

/-- Another function is neither missed nor provided by it. -/
theorem inheritsFunction_of_addFunction {f : MemberFunction} {n : String}
    (h : c.addFunction f = .ok c') (hn : n ≠ f.name) :
    c'.function? n = c.function? n ∧ c'.inheritsFunction r n = c.inheritsFunction r n := by
  obtain ⟨t, ht, rfl⟩ := addFunction_eq_ok_iff.mp h
  have hget : t.get? n = c.functions.get? n := by
    rw [MemberTable.get?_insert? ht, if_neg hn]
  have hhas : Class.hasFunction { c with functions := t } n = c.hasFunction n := by
    rw [Bool.eq_iff_iff, hasFunction_iff, hasFunction_iff]
    unfold function?
    rw [hget]
  refine ⟨hget, ?_⟩
  unfold inheritsFunction
  rw [hhas]

/-- What is found under the name of a builtin method after installation: the method
itself where the heritage lacked it, and else what was there before. -/
theorem function?_of_installEach {bs : List Builtin} (hbs : bs.Nodup) {n m : Nat}
    (h : installEach r o bs n c = (c', .ok m)) (b : Builtin) :
    c'.function? b.name =
      if b ∈ bs ∧ c.inheritsFunction r b.name = false then some (c.builtinFunction o b)
      else c.function? b.name := by
  induction bs generalizing n c with
  | nil =>
    cases h
    simp
  | cons x bs ih =>
    rw [List.nodup_cons] at hbs
    unfold installEach at h
    split at h
    · -- a method that is inherited is skipped
      next hinherits =>
      rw [ih hbs.2 h]
      by_cases hb : b = x
      · subst hb
        simp [hinherits]
      · simp [hb]
    · next hlacks =>
      split at h
      · next k hk =>
        have hown : (c.builtinFunction o x).OwnedBy c.id c.fullName :=
          ⟨rfl, rfl, fun _ _ => ⟨rfl, rfl⟩, nofun, nofun, nofun⟩
        have hgrows := grows_of_addFunction hown hk
        have hsame : k.builtinFunction o = c.builtinFunction o := by
          funext y
          unfold builtinFunction memberName
          rw [hgrows.id_eq, hgrows.fullName_eq]
        rw [ih hbs.2 h, hsame]
        by_cases hb : b = x
        · -- it has just been added, and is not added again
          subst hb
          have hget : k.function? b.name = some (c.builtinFunction o b) := by
            obtain ⟨t, ht, rfl⟩ := addFunction_eq_ok_iff.mp hk
            exact (MemberTable.get?_insert? ht b.name).trans (if_pos rfl)
          simp [hbs.1, hlacks, hget]
        · have hother : b.name ≠ (c.builtinFunction o x).name :=
            fun hname => hb (Builtin.name_injective hname)
          obtain ⟨hget, hinherits⟩ := inheritsFunction_of_addFunction (r := r) hk hother
          simp [hb, hget, hinherits]
      · cases h

end Class

/-- **What a definition makes of the name of a builtin method**: what was declared under
it, unless the heritage lacks the method. -/
theorem ClassDecl.function?_of_build {d : ClassDecl Expr} {r : Registry} {o : EngineOptions}
    {c : Class} (h : d.build r o = .ok c) :
    ∃ declared : Class, declared.id = c.id ∧ declared.heritage = c.heritage ∧
      (∀ n, declared.hasFunction n = true ↔ d.DeclaresFunction n) ∧
      (∀ n f, declared.function? n = some f → f.flags.isBuiltin = false) ∧
      ∀ b : Builtin, c.function? b.name =
        if declared.inheritsFunction r b.name then declared.function? b.name
        else some (declared.builtinFunction o b) := by
  obtain ⟨-, supers, declared, installed, k, n, -, hdeclared, hinstall, hk, rfl⟩ :=
    steps_of_build h
  have hgrows : declared.Grows k := by
    have hinstalled := Class.grows_of_installEach hinstall
    rcases hk with rfl | hk
    · exact hinstalled
    · exact hinstalled.trans (Class.grows_of_installComposite hk)
  refine ⟨declared, hgrows.id_eq.symm, hgrows.heritage_eq.symm,
    fun n => hasFunction_of_declareMembers hdeclared,
    fun n f => isBuiltin_of_declareMembers hdeclared, fun b => ?_⟩
  have hfunctions : k.functions = installed.functions := by
    rcases hk with rfl | hk
    · rfl
    · exact Class.functions_of_installComposite hk
  have hall : b ∈ Builtin.all := by cases b <;> decide
  show k.functions.get? b.name = _
  rw [hfunctions]
  refine (Class.function?_of_installEach (by decide) hinstall b).trans ?_
  cases declared.inheritsFunction r b.name <;> simp [hall]

/-! ### The definitions of classes -/

namespace Registry

variable {o : EngineOptions} {r : Registry} {id : ClassId} {c : Class}

/-- The registry as it was before the class with that number. -/
def before (r : Registry) (id : ClassId) : Registry := ⟨r.classes.take id.index⟩

/-- The definition makes the class with that number, in the registry as it was before. -/
def DefinedBy (r : Registry) (o : EngineOptions) (id : ClassId) (d : ClassDecl Expr) : Prop :=
  ∃ c, r.get? id = some c ∧ d.build (r.before id) o = .ok c

theorem before_nextId (r : Registry) (c : Class) : (r.register c).before r.nextId = r := by
  simp [before, register, nextId]

theorem before_register {c : Class} (hid : id.index < r.nextId.index) :
    (r.register c).before id = r.before id := by
  unfold before register
  rw [List.take_append_of_le_length (Nat.le_of_lt hid)]

theorem get?_before {k : ClassId} (hid : k.index < id.index) : (r.before id).get? k = r.get? k := by
  unfold before get?
  rw [List.getElem?_take_of_lt hid]

namespace Built

/-- Every registered class has a definition. -/
theorem exists_definedBy (hr : r.Built o) (hc : r.get? id = some c) :
    (r.before id).Built o ∧ ∃ d, r.DefinedBy o id d := by
  induction hr with
  | empty => cases hc
  | @register r k d hr hbuild ih =>
    rw [get?_register_eq_some_iff] at hc
    rcases hc with hc | ⟨rfl, rfl⟩
    · obtain ⟨hbefore, d', c', hc', hd'⟩ := ih hc
      have hold := before_register (c := k) (index_lt_of_get? hc)
      refine ⟨by rwa [hold], d', c', (growsTo_register r k).get? hc', by rwa [hold]⟩
    · rw [before_nextId]
      exact ⟨hr, d, c, get?_register_nextId r c, by rwa [before_nextId]⟩

end Built

/-- Some class of the heritage of `c` owns a function called `n`. -/
def Provides (r : Registry) (c : Class) (n : String) : Prop :=
  ∃ k ∈ c.heritage, ∃ d, r.get? k = some d ∧ d.hasFunction n = true

namespace Built

/-- What the heritage of a class lacks while it is made. -/
theorem inheritsFunction_iff (hr : r.Built o) (hc : r.get? id = some c) {declared : Class}
    (hid : declared.id = c.id) (hheritage : declared.heritage = c.heritage) {n : String} :
    declared.inheritsFunction (r.before id) n = true ↔
      declared.hasFunction n = true ∨
        ∃ k ∈ c.heritage, k ≠ id ∧ ∃ d, r.get? k = some d ∧ d.hasFunction n = true := by
  have hself : id ∈ c.heritage := (hr.mem_heritage_iff hc).mpr .refl
  have hcid := hr.id_eq hc
  unfold Class.inheritsFunction
  rw [hheritage, hid, hcid, List.any_eq_true]
  constructor
  · rintro ⟨k, hk, hfun⟩
    split at hfun
    · exact Or.inl hfun
    · next hne =>
      refine Or.inr ⟨k, hk, hne, ?_⟩
      rw [get?_before (hr.index_lt_of_mem_heritage hc hk hne)] at hfun
      split at hfun
      · next d hd => exact ⟨d, hd, hfun⟩
      · cases hfun
  · rintro (hown | ⟨k, hk, hne, d, hd, hfun⟩)
    · exact ⟨id, hself, by rw [if_pos rfl]; exact hown⟩
    · refine ⟨k, hk, ?_⟩
      rw [if_neg hne, get?_before (hr.index_lt_of_mem_heritage hc hk hne), hd]
      exact hfun

/-- **Every heritage has the builtin methods.** -/
theorem exists_provider (hr : r.Built o) (hc : r.get? id = some c) (b : Builtin) :
    r.Provides c b.name := by
  obtain ⟨-, d, c', hc', hd⟩ := hr.exists_definedBy hc
  cases hc.symm.trans hc'
  obtain ⟨declared, hid, hheritage, -, -, hfunction⟩ := ClassDecl.function?_of_build hd
  have hown {f : MemberFunction} (hf : c.function? b.name = some f) : r.Provides c b.name :=
    ⟨id, (hr.mem_heritage_iff hc).mpr .refl, c, hc, Class.hasFunction_iff.mpr ⟨f, hf⟩⟩
  have hb := hfunction b
  by_cases hinherits : declared.inheritsFunction (r.before id) b.name = true
  · rw [if_pos hinherits] at hb
    rcases (hr.inheritsFunction_iff hc hid hheritage).mp hinherits with
      hhas | ⟨k, hk, -, e, he, hfun⟩
    · obtain ⟨f, hf⟩ := Class.hasFunction_iff.mp hhas
      exact hown (hb.trans hf)
    · exact ⟨k, hk, e, he, hfun⟩
  · rw [if_neg hinherits] at hb
    exact hown hb

/-- An ancestor provides the builtin methods of a class that has a superclass. -/
theorem exists_proper_provider_iff (hr : r.Built o) (hc : r.get? id = some c) (b : Builtin) :
    (∃ k ∈ c.heritage, k ≠ id ∧ ∃ d, r.get? k = some d ∧ d.hasFunction b.name = true) ↔
      c.supers ≠ [] := by
  have hsupers := supersOf_eq hc
  constructor
  · rintro ⟨k, hk, hne, -⟩ hnone
    rcases Relation.ReflTransGen.cases_head ((hr.mem_heritage_iff hc).mp hk) with
      heq | ⟨s, hs, -⟩
    · exact hne heq.symm
    · unfold Inherits at hs
      rw [hsupers, hnone] at hs
      cases hs
  · intro hsome
    obtain ⟨s, rest, hcons⟩ := List.exists_cons_of_ne_nil hsome
    have hs : r.Inherits id s := inherits_of_mem_supers hc (hcons ▸ List.mem_cons_self)
    obtain ⟨d, hd⟩ := Option.isSome_iff_exists.mp (hr.isSome_get?_of_inherits hs)
    obtain ⟨k, hk, e, he, hfun⟩ := hr.exists_provider hd b
    have hway := (hr.mem_heritage_iff hd).mp hk
    refine ⟨k, (hr.mem_heritage_iff hc).mpr (.head hs hway), ?_, e, he, hfun⟩
    rintro rfl
    have hlt := hr.index_lt_of_inherits hs
    have hle := hr.index_le_of_reflTransGen hway
    omega

end Built

end Registry

/-- The class owns the builtin method as it was installed. -/
def Class.HasInstalled (c : Class) (b : Builtin) : Prop :=
  ∃ f, c.function? b.name = some f ∧ f.flags.isBuiltin = true ∧ f.body = .builtin b

/-- **A builtin method is installed in the classes that have no superclass and do not
declare it.** -/
theorem Registry.Built.hasInstalled_iff {o : EngineOptions} {r : Registry} (hr : r.Built o)
    {id : ClassId} {c : Class} (hc : r.get? id = some c) {d : ClassDecl Expr}
    (hd : r.DefinedBy o id d) (b : Builtin) :
    c.HasInstalled b ↔ c.supers = [] ∧ ¬ d.DeclaresFunction b.name := by
  obtain ⟨c', hc', hbuild⟩ := hd
  cases hc.symm.trans hc'
  obtain ⟨declared, hid, hheritage, hdeclares, hbuiltin, hfunction⟩ :=
    ClassDecl.function?_of_build hbuild
  have hlacks : declared.inheritsFunction (r.before id) b.name = true ↔
      d.DeclaresFunction b.name ∨ c.supers ≠ [] := by
    rw [hr.inheritsFunction_iff hc hid hheritage, hdeclares, hr.exists_proper_provider_iff hc]
  have hb := hfunction b
  by_cases hinherits : declared.inheritsFunction (r.before id) b.name = true
  · rw [if_pos hinherits] at hb
    rw [hlacks] at hinherits
    constructor
    · rintro ⟨f, hf, hflag, -⟩
      rw [hbuiltin b.name f (hb.symm.trans hf)] at hflag
      cases hflag
    · rintro ⟨hnone, hnot⟩
      exact absurd hnone (hinherits.resolve_left hnot)
  · rw [if_neg hinherits] at hb
    rw [hlacks, not_or, not_not] at hinherits
    exact ⟨fun _ => ⟨hinherits.2, hinherits.1⟩, fun _ => ⟨_, hb, rfl, rfl⟩⟩

/-! ### What the names mean -/

/-- The components of the name of the class and the names of its functions are words. -/
structure Class.WordNamed (c : Class) : Prop where
  components : ∀ p ∈ (Name.pieces c.fullName.toList).tail, Name.IsWord p
  functionNames : ∀ f ∈ c.functions.toList, Name.IsWord f.name.toList

instance (c : Class) : Decidable c.WordNamed :=
  decidable_of_iff
    ((∀ p ∈ (Name.pieces c.fullName.toList).tail, Name.IsWord p) ∧
      ∀ f ∈ c.functions.toList, Name.IsWord f.name.toList)
    ⟨fun h => ⟨h.1, h.2⟩, fun h => ⟨h.components, h.functionNames⟩⟩

/-- A word is a spelling of the names that have it as their last component. -/
theorem Name.mem_spellings_of_word {n m w : String} {ps : List (List Char)}
    (hps : ∀ p ∈ ps, IsWord p) (hw : IsWord w.toList) (hn : n.toList = marked (ps ++ [w.toList]))
    (hm : ':' ∉ m.toList) : m ∈ spellings n ↔ w = m := by
  constructor
  · intro h
    rw [← simple_of_mem_spellings hps hw hn h, simple_of_not_mem hm]
  · rintro rfl
    have hwords : ∀ p ∈ ps ++ [w.toList], IsWord p := by
      simpa [or_imp, forall_and] using ⟨hps, hw⟩
    unfold spellings
    rw [components_of_marked hwords hn, List.mem_append, List.mem_map]
    refine Or.inl ⟨[w], mem_suffixes_iff.mpr ⟨List.cons_ne_nil w [], ?_⟩, ?_⟩
    · rw [List.map_append]
      simp
    · exact String.intercalate_singleton

/-- **A word means the first function of that name** along the heritage, unless it is the
name of a lifecycle function. -/
theorem Class.resolveFunction?_eq {o : EngineOptions} {r : Registry} (hr : r.Built o)
    {id : ClassId} {c : Class} (hc : r.get? id = some c)
    (hnames : ∀ k ∈ c.heritage, ∀ d, r.get? k = some d → d.WordNamed) {n : String}
    (hn : ':' ∉ n.toList) (hctor : n ≠ constructorName) (hdtor : n ≠ destructorName) :
    c.resolveFunction? n = functionAmong? n (c.heritage.filterMap r.get?) := by
  unfold functionAmong?
  rw [Class.resolveFunction?_eq_find? hr hc, Registry.functionsOf, List.find?_flatMap]
  rw [← List.head?_filterMap, ← List.head?_filterMap]
  refine congrArg List.head? (List.filterMap_congr fun d hd => ?_)
  obtain ⟨k, hk, hget⟩ := List.mem_filterMap.mp hd
  have hformed := (hr.formed hget).functions
  have hwords := hnames k hk d hget
  unfold Class.function?
  rw [← hformed.find?_toList n]
  refine List.find?_congr fun f hf => ?_
  have howned := hformed.all f hf
  obtain ⟨ps, hps, hfull⟩ := hr.exists_marked_fullName hget hwords.components hf
  have hspelled := Name.mem_spellings_of_word hps (hwords.functionNames f hf) hfull hn
  rw [Bool.eq_iff_iff, Bool.and_eq_true, decide_eq_true_eq, decide_eq_true_eq, hspelled]
  refine ⟨fun h => h.2, fun h => ⟨?_, h⟩⟩
  -- lifecycle functions have other names
  subst h
  unfold MemberFunction.isLifecycle
  rw [Bool.not_eq_true', Bool.or_eq_false_iff]
  constructor
  · exact Bool.eq_false_iff.mpr fun h => hctor (howned.name_of_constructor h)
  · exact Bool.eq_false_iff.mpr fun h => hdtor (howned.name_of_destructor h)

/-- The function of that name that comes first is there when the heritage has one. -/
theorem Registry.Provides.exists_functionAmong? {r : Registry} {c : Class} {n : String}
    (h : r.Provides c n) : ∃ f, functionAmong? n (c.heritage.filterMap r.get?) = some f := by
  obtain ⟨k, hk, d, hd, hfun⟩ := h
  obtain ⟨f, hf⟩ := Class.hasFunction_iff.mp hfun
  have hmem : d ∈ c.heritage.filterMap r.get? := List.mem_filterMap.mpr ⟨k, hk, hd⟩
  have hsome : (functionAmong? n (c.heritage.filterMap r.get?)).isSome :=
    List.findSome?_isSome_iff.mpr ⟨d, hmem, by rw [hf]; rfl⟩
  exact Option.isSome_iff_exists.mp hsome

/-- **Every class has the builtin methods**, at every moment of every session.  For each
of them, some class of its heritage owns a function of that name; the method is installed
in the class itself exactly when the class has no superclass and its definition declares
no such function; and where names are words, the name means the function that comes first
along the heritage. -/
theorem builtins_of_class {o : EngineOptions} {w : World} (h : Session.Reachable o w)
    {id : ClassId} {c : Class} (hc : w.registry.get? id = some c) (b : Builtin) :
    w.registry.Provides c b.name ∧
    (∃ d, w.registry.DefinedBy o id d) ∧
    (∀ d, w.registry.DefinedBy o id d →
      (c.HasInstalled b ↔ c.supers = [] ∧ ¬ d.DeclaresFunction b.name)) ∧
    ((∀ k ∈ c.heritage, ∀ d, w.registry.get? k = some d → d.WordNamed) →
      ∃ f, functionAmong? b.name (w.knownClasses c.heritage) = some f ∧
        c.resolveFunction? b.name = some f) := by
  have hr : w.registry.Built o := h.options_eq ▸ h.sound.built
  have hprovides := hr.exists_provider hc b
  refine ⟨hprovides, (hr.exists_definedBy hc).2, fun d hd => hr.hasInstalled_iff hc hd b,
    fun hwords => ?_⟩
  obtain ⟨f, hf⟩ := hprovides.exists_functionAmong?
  refine ⟨f, hf, ?_⟩
  rw [Class.resolveFunction?_eq hr hc hwords (by cases b <;> decide) (by cases b <;> decide)
    (by cases b <;> decide)]
  exact hf

/-- The definition of a class that has an `info` of its own and keeps it private. -/
def gaugeDecl : ClassDecl Expr :=
  { name := "Gauge", members := [.method "info" .priv (.const (.str "mine"))] }

/-- Defines it, another root and a class below both. -/
def gauges : List Expr :=
  [.defineClass gaugeDecl, .defineClass { name := "Mixin" },
    .defineClass { name := "Dial", inherits := ["Gauge", "Mixin"] }]

/-- The world in which they are defined. -/
def gaugesWorld : World :=
  (World.initial {}).replay ((Session.history 0 (World.initial {}) gauges).take 3)

/-- The private function keeps the builtin method out of its class.  The class below gets
none either, and `info` means the private function there, not the method of the other
root. -/
theorem builtins_of_gauges :
    (∃ c, gaugesWorld.registry.get? ⟨0⟩ = some c ∧
      ¬ c.HasInstalled .info ∧ c.HasInstalled .isa) ∧
    ∃ c f, gaugesWorld.registry.get? ⟨2⟩ = some c ∧ ¬ c.HasInstalled .info ∧
      c.resolveFunction? "info" = some f ∧ f.fullName = "::Gauge::info" := by
  have hreachable : Session.Reachable {} gaugesWorld :=
    (Session.stretch_of_history {} 0 gauges 3 0).reachable
  have hwords : ∀ d ∈ gaugesWorld.registry.classes, d.WordNamed := by decide +kernel
  constructor
  · have hgauge : gaugesWorld.registry.DefinedBy {} ⟨0⟩ gaugeDecl := ⟨_, rfl, rfl⟩
    obtain ⟨c, hc, -⟩ := id hgauge
    have hroot : (gaugesWorld.registry.get? ⟨0⟩).map (·.supers) = some [] := by decide +kernel
    rw [hc, Option.map_some, Option.some.injEq] at hroot
    have hinstalled (b : Builtin) := (builtins_of_class hreachable hc b).2.2.1 gaugeDecl hgauge
    refine ⟨c, hc, fun h => ?_, (hinstalled .isa).mpr ⟨hroot, by decide⟩⟩
    exact absurd ((hinstalled .info).mp h).2 (by decide)
  · have hinherits : (gaugesWorld.registry.get? ⟨2⟩).map (·.supers) = some [⟨0⟩, ⟨1⟩] := by
      decide +kernel
    obtain ⟨c, hc, hsupers⟩ := Option.map_eq_some_iff.mp hinherits
    obtain ⟨-, ⟨d, hd⟩, hinstalled, hmeans⟩ := builtins_of_class hreachable hc .info
    obtain ⟨f, hfirst, hf⟩ := hmeans fun k _ e he => hwords e (Registry.mem_of_get? he)
    refine ⟨c, f, hc, fun h => ?_, hf, ?_⟩
    · rw [hinstalled d hd, hsupers] at h
      exact absurd h.1 (List.cons_ne_nil _ _)
    · have hname : (gaugesWorld.registry.get? ⟨2⟩).bind (fun c =>
          (functionAmong? "info" (gaugesWorld.knownClasses c.heritage)).map (·.fullName)) =
            some "::Gauge::info" := by
        decide +kernel
      rw [hc, Option.bind_some] at hname
      obtain ⟨g, hg, hgname⟩ := Option.map_eq_some_iff.mp hname
      cases hg.symm.trans hfirst
      exact hgname

end ObjectDispatch
