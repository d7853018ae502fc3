import ObjectDispatch.Class.Definition

/-!
# What a definition makes

A class is assembled from a bare class: functions, variables, builtin methods and
the members of composite classes are added to it, and nothing else about it
changes.  Each member that is added belongs to the class, by its owner and by its
full name, and is entered under its own name.

## Main definitions

* `MemberTable.Holds` — a table of members that are entered under their names.
* `Class.Formed` — the members of the class belong to it.
* `Class.Grows` — a class with further members.

## Main results

* `ClassDecl.build_eq_ok` — **how a definition that succeeds comes to its class.**
-/

namespace ObjectDispatch

/-- A sequence of two steps succeeds when both do. -/
theorem bind_eq_ok_iff {α β : Type} {x : Except DispatchError α} {f : α → Except DispatchError β}
    {b : β} : (x >>= f) = .ok b ↔ ∃ a, x = .ok a ∧ f a = .ok b := by
  cases x with
  | error e => exact ⟨fun h => (by cases h), fun ⟨a, ha, _⟩ => by cases ha⟩
  | ok a =>
    constructor
    · intro h
      exact ⟨a, rfl, h⟩
    · rintro ⟨a', ha, h⟩
      cases ha
      exact h

/-- What every step of a loop keeps holds at its end. -/
theorem foldlM_induct {α β : Type} {I : β → Prop} {f : β → α → Except DispatchError β}
    {as : List α} (hstep : ∀ a ∈ as, ∀ b b', I b → f b a = .ok b' → I b') {b b' : β} (hb : I b)
    (h : as.foldlM f b = .ok b') : I b' := by
  induction as generalizing b with
  | nil =>
    cases h
    exact hb
  | cons a as ih =>
    rw [List.foldlM_cons, bind_eq_ok_iff] at h
    obtain ⟨c, hc, h⟩ := h
    exact ih (fun x hx => hstep x (List.mem_cons_of_mem a hx))
      (hstep a List.mem_cons_self b c hb hc) h

/-- A loop whose steps add one thing each has added all of them at its end. -/
theorem foldlM_append {α β γ : Type} {items : β → List γ} {item : α → γ}
    {f : β → α → Except DispatchError β}
    (hstep : ∀ b a b', f b a = .ok b' → items b' = items b ++ [item a]) {as : List α} {b b' : β}
    (h : as.foldlM f b = .ok b') : items b' = items b ++ as.map item := by
  induction as generalizing b with
  | nil =>
    cases h
    rw [List.map_nil, List.append_nil]
  | cons a as ih =>
    rw [List.foldlM_cons, bind_eq_ok_iff] at h
    obtain ⟨c, hc, h⟩ := h
    rw [ih h, hstep b a c hc, List.append_assoc, List.singleton_append, List.map_cons]

namespace MemberTable

variable {α : Type} {t t' : MemberTable α} {name : α → String} {P : α → Prop}

/-- The name of a new member comes last. -/
theorem names_insert? {n : String} {a : α} (h : t.insert? n a = some t') :
    t'.names = t.names ++ [n] := by
  unfold insert? at h
  split at h
  · simp at h
  · simp only [Option.some.injEq] at h
    subst h
    simp [names]

/-- The members satisfy `P`, and each is entered under its name. -/
structure Holds (t : MemberTable α) (name : α → String) (P : α → Prop) : Prop where
  all : ∀ a ∈ t.toList, P a
  names_eq : t.names = t.toList.map name

namespace Holds

theorem empty : (MemberTable.empty : MemberTable α).Holds name P :=
  ⟨fun _ h => absurd h List.not_mem_nil, rfl⟩

theorem insert? {a : α} (ht : t.Holds name P) (ha : P a)
    (h : t.insert? (name a) a = some t') : t'.Holds name P := by
  constructor
  · intro b hb
    rw [toList_insert? h, List.mem_append, List.mem_singleton] at hb
    rcases hb with hb | rfl
    · exact ht.all b hb
    · exact ha
  · rw [names_insert? h, toList_insert? h, List.map_append, ht.names_eq]
    rfl

/-- A member is found under its own name. -/
theorem name_eq (ht : t.Holds name P) {n : String} {a : α} (h : t.get? n = some a) :
    name a = n := by
  have hmem : (n, a) ∈ t.entries := get?_eq_some_iff.mp h
  have hnames : t.entries.map Prod.fst = t.entries.map (name ∘ Prod.snd) := by
    rw [← List.map_map]
    exact ht.names_eq
  exact (List.map_inj_left.mp hnames (n, a) hmem).symm

/-- No two members have the same name. -/
theorem nodup (ht : t.Holds name P) : (t.toList.map name).Nodup := by
  rw [← ht.names_eq]
  exact t.names_nodup

end Holds

end MemberTable

/-- The function belongs to the class with that number and full name.  A builtin
method is as it was installed, lifecycle functions have their fixed names, and a
destructor is nothing else besides. -/
structure MemberFunction.OwnedBy (f : MemberFunction) (id : ClassId) (cls : String) : Prop where
  owner_eq : f.owner = id
  fullName_eq : f.fullName = Name.member cls f.name
  builtin : ∀ b, f.body = .builtin b → f.protection = .pub ∧ f.flags = { isBuiltin := true }
  name_of_constructor : f.flags.isConstructor → f.name = constructorName
  name_of_destructor : f.flags.isDestructor → f.name = destructorName
  flags_of_destructor : f.flags.isDestructor → f.flags = { isDestructor := true }

/-- The variable belongs to the class with that number and full name. -/
structure Variable.OwnedBy (v : Variable) (id : ClassId) (cls : String) : Prop where
  owner_eq : v.owner = id
  fullName_eq : v.fullName = Name.member cls v.name

namespace Class

/-! ### Classes whose members are their own -/

/-- The members of the class belong to it and are entered under their names, and its
components are kept in variables of its own. -/
structure Formed (c : Class) : Prop where
  functions : c.functions.Holds (·.name) (·.OwnedBy c.id c.fullName)
  ownVariables : c.ownVariables.Holds (·.name) (·.OwnedBy c.id c.fullName)
  stores : ∀ k ∈ c.components.toList, ∃ v ∈ c.ownVariables.toList, v.fullName = k.store

/-- `c'` is `c` with further members. -/
structure Grows (c c' : Class) : Prop where
  id_eq : c'.id = c.id
  fullName_eq : c'.fullName = c.fullName
  supers_eq : c'.supers = c.supers
  flags_eq : c'.flags = c.flags
  heritage_eq : c'.heritage = c.heritage
  formed : c.Formed → c'.Formed

namespace Grows

variable {c c' c'' : Class}

theorem refl (c : Class) : c.Grows c := ⟨rfl, rfl, rfl, rfl, rfl, fun h => h⟩

theorem trans (h : c.Grows c') (h' : c'.Grows c'') : c.Grows c'' where
  id_eq := h'.id_eq.trans h.id_eq
  fullName_eq := h'.fullName_eq.trans h.fullName_eq
  supers_eq := h'.supers_eq.trans h.supers_eq
  flags_eq := h'.flags_eq.trans h.flags_eq
  heritage_eq := h'.heritage_eq.trans h.heritage_eq
  formed hc := h'.formed (h.formed hc)

end Grows

/-! ### A further member -/

variable {c c' : Class}

theorem addFunction_eq_ok_iff {f : MemberFunction} : c.addFunction f = .ok c' ↔
    ∃ t, c.functions.insert? f.name f = some t ∧ c' = { c with functions := t } := by
  unfold addFunction
  cases c.functions.insert? f.name f <;> simp [eq_comm]

theorem addVariable_eq_ok_iff {v : Variable} : c.addVariable v = .ok c' ↔
    ∃ t, c.ownVariables.insert? v.name v = some t ∧ c' = { c with ownVariables := t } := by
  unfold addVariable
  cases c.ownVariables.insert? v.name v <;> simp [eq_comm]

theorem addComponent_eq_ok_iff {k : Component} : c.addComponent k = .ok c' ↔
    ∃ t, c.components.insert? k.name k = some t ∧ c' = { c with components := t } := by
  unfold addComponent
  cases c.components.insert? k.name k <;> simp [eq_comm]

theorem grows_of_addFunction {f : MemberFunction} (hf : f.OwnedBy c.id c.fullName)
    (h : c.addFunction f = .ok c') : c.Grows c' := by
  obtain ⟨t, ht, rfl⟩ := addFunction_eq_ok_iff.mp h
  refine ⟨rfl, rfl, rfl, rfl, rfl, fun hc => ?_⟩
  exact ⟨hc.functions.insert? hf ht, hc.ownVariables, hc.stores⟩

theorem grows_of_addVariable {v : Variable} (hv : v.OwnedBy c.id c.fullName)
    (h : c.addVariable v = .ok c') : c.Grows c' := by
  obtain ⟨t, ht, rfl⟩ := addVariable_eq_ok_iff.mp h
  refine ⟨rfl, rfl, rfl, rfl, rfl, fun hc => ?_⟩
  refine ⟨hc.functions, hc.ownVariables.insert? hv ht, fun k hk => ?_⟩
  obtain ⟨u, hu, hstore⟩ := hc.stores k hk
  refine ⟨u, ?_, hstore⟩
  rw [MemberTable.toList_insert? ht]
  exact List.mem_append_left [v] hu

theorem mem_of_addVariable {v : Variable} (h : c.addVariable v = .ok c') :
    v ∈ c'.ownVariables.toList := by
  obtain ⟨t, ht, rfl⟩ := addVariable_eq_ok_iff.mp h
  rw [MemberTable.toList_insert? ht]
  exact List.mem_append_right _ (List.mem_singleton_self v)

theorem grows_of_addComponent {k : Component}
    (hk : ∃ v ∈ c.ownVariables.toList, v.fullName = k.store) (h : c.addComponent k = .ok c') :
    c.Grows c' := by
  obtain ⟨t, ht, rfl⟩ := addComponent_eq_ok_iff.mp h
  refine ⟨rfl, rfl, rfl, rfl, rfl, fun hc => ⟨hc.functions, hc.ownVariables, fun k' hk' => ?_⟩⟩
  rw [MemberTable.toList_insert? ht, List.mem_append, List.mem_singleton] at hk'
  rcases hk' with hk' | rfl
  · exact hc.stores k' hk'
  · exact hk

/-! ### Installation -/

theorem grows_of_installEach {r : Registry} {o : EngineOptions} {bs : List Builtin} {n m : Nat}
    (h : installEach r o bs n c = (c', .ok m)) : c.Grows c' := by
  induction bs generalizing n c with
  | nil =>
    cases h
    exact .refl _
  | cons b bs ih =>
    unfold installEach at h
    split at h
    · exact ih h
    · -- the heritage lacks the method, so the class gets it
      split at h
      · next k hk =>
        have hb : (c.builtinFunction o b).OwnedBy c.id c.fullName :=
          ⟨rfl, rfl, fun _ _ => ⟨rfl, rfl⟩, nofun, nofun, nofun⟩
        exact (grows_of_addFunction hb hk).trans (ih h)
      · cases h

theorem grows_of_installComponent {n : String} {b : Bool}
    (h : c.installComponent n = .ok (c', b)) : c.Grows c' := by
  unfold installComponent at h
  split at h
  · cases h
    exact .refl _
  · cases hvar : c.ownVariable? n with
    | some v =>
      -- a declared variable keeps the component
      simp only [hvar] at h
      obtain ⟨k, hk, h⟩ := bind_eq_ok_iff.mp h
      cases hk
      obtain ⟨k', hk', h⟩ := bind_eq_ok_iff.mp h
      cases h
      exact grows_of_addComponent ⟨v, MemberTable.mem_toList_of_get? hvar, by simp⟩ hk'
    | none =>
      simp only [hvar] at h
      obtain ⟨k, hk, h⟩ := bind_eq_ok_iff.mp h
      obtain ⟨k', hk', h⟩ := bind_eq_ok_iff.mp h
      cases h
      refine (grows_of_addVariable ⟨rfl, rfl⟩ hk).trans (grows_of_addComponent ?_ hk')
      exact ⟨c.protectedVariable n, mem_of_addVariable hk, by simp [protectedVariable]⟩

theorem grows_of_installOptionsVariable {n : String} {b : Bool}
    (h : c.installOptionsVariable n = .ok (c', b)) : c.Grows c' := by
  unfold installOptionsVariable at h
  split at h
  · cases h
    exact .refl _
  · obtain ⟨k, hk, h⟩ := bind_eq_ok_iff.mp h
    cases h
    exact grows_of_addVariable ⟨rfl, rfl⟩ hk

theorem grows_of_installComposite {o : EngineOptions} (h : c.installComposite o = .ok c') :
    c.Grows c' := by
  obtain ⟨⟨k, b⟩, hk, h⟩ := bind_eq_ok_iff.mp h
  obtain ⟨⟨k', b'⟩, hk', h⟩ := bind_eq_ok_iff.mp h
  cases h
  exact (grows_of_installComponent hk).trans (grows_of_installOptionsVariable hk')

end Class

/-! ### Declared members -/

namespace MemberDecl

variable {c : Class} {m : MemberDecl Expr}

theorem ownedBy_of_toFunction? {f : MemberFunction} (h : m.toFunction? c = some f) :
    f.OwnedBy c.id c.fullName := by
  cases m with
  | var => cases h
  | option => cases h
  | ctor =>
    cases h
    exact ⟨rfl, rfl, nofun, fun _ => rfl, nofun, nofun⟩
  | dtor =>
    cases h
    exact ⟨rfl, rfl, nofun, nofun, fun _ => rfl, fun _ => rfl⟩
  | _ =>
    cases h
    exact ⟨rfl, rfl, nofun, nofun, nofun, nofun⟩

theorem ownedBy_of_toVariable? {v : Variable} (h : m.toVariable? c = some v) :
    v.OwnedBy c.id c.fullName := by
  cases m with
  | var =>
    cases h
    exact ⟨rfl, rfl⟩
  | option =>
    cases h
    exact ⟨rfl, rfl⟩
  | _ => cases h

end MemberDecl

namespace Class

variable {b c c' : Class}

theorem declareFunction_eq_ok_iff {f : MemberFunction} : c.declareFunction f = .ok c' ↔
    Name.isQualified f.name = false ∧ c.addFunction f = .ok c' := by
  unfold declareFunction
  cases Name.isQualified f.name <;> simp

theorem declareVariable_eq_ok_iff {v : Variable} : c.declareVariable v = .ok c' ↔
    Name.isQualified v.name = false ∧ c.addVariable v = .ok c' := by
  unfold declareVariable
  cases Name.isQualified v.name <;> simp

theorem grows_of_declareFunction {f : MemberFunction} (hf : f.OwnedBy b.id b.fullName)
    (hc : b.Grows c) (h : c.declareFunction f = .ok c') : b.Grows c' := by
  rw [← hc.id_eq, ← hc.fullName_eq] at hf
  exact hc.trans (grows_of_addFunction hf (declareFunction_eq_ok_iff.mp h).2)

theorem grows_of_declareVariable {v : Variable} (hv : v.OwnedBy b.id b.fullName)
    (hc : b.Grows c) (h : c.declareVariable v = .ok c') : b.Grows c' := by
  rw [← hc.id_eq, ← hc.fullName_eq] at hv
  exact hc.trans (grows_of_addVariable hv (declareVariable_eq_ok_iff.mp h).2)

end Class

namespace ClassDecl

variable {d : ClassDecl Expr} {r : Registry} {o : EngineOptions} {c c' : Class}

/-- A class without members is formed. -/
theorem formed_bare (d : ClassDecl Expr) (r : Registry) (supers : List ClassId) :
    (d.bare r supers).Formed :=
  ⟨.empty, .empty, fun _ hk => absurd hk List.not_mem_nil⟩

theorem grows_of_declareFunctions
    (h : (d.members.filterMap (MemberDecl.toFunction? c)).foldlM Class.declareFunction c = .ok c') :
    c.Grows c' := by
  refine foldlM_induct (fun f hf k k' hk h => ?_) (.refl _) h
  obtain ⟨m, -, hm⟩ := List.mem_filterMap.mp hf
  exact Class.grows_of_declareFunction (MemberDecl.ownedBy_of_toFunction? hm) hk h

theorem grows_of_declareVariables
    (h : (d.members.filterMap (MemberDecl.toVariable? c)).foldlM Class.declareVariable c = .ok c') :
    c.Grows c' := by
  refine foldlM_induct (fun v hv k k' hk h => ?_) (.refl _) h
  obtain ⟨m, -, hm⟩ := List.mem_filterMap.mp hv
  exact Class.grows_of_declareVariable (MemberDecl.ownedBy_of_toVariable? hm) hk h

theorem grows_of_declareMembers (h : d.declareMembers c = .ok c') : c.Grows c' := by
  obtain ⟨k, hk, h⟩ := bind_eq_ok_iff.mp h
  exact (grows_of_declareFunctions hk).trans (grows_of_declareVariables h)

/-- The steps of a definition that succeeds. -/
theorem build_eq_ok_iff : d.build r o = .ok c ↔
    r.byFullName? d.fullName = none ∧ ∃ supers declared installed n k,
      d.findSupers r d.inherits [] = .ok supers ∧
      d.declareMembers (d.bare r supers) = .ok declared ∧
      declared.installBuiltins r o = (installed, .ok n) ∧
      (if d.kind.isComposite then installed.installComposite o else .ok installed) = .ok k ∧
      c = k.resolved r := by
  unfold build
  cases hnew : r.byFullName? d.fullName with
  | some k => simp
  | none =>
    rw [Option.isSome_none, if_neg Bool.false_ne_true]
    simp only [bind_eq_ok_iff, true_and]
    -- the last steps, which differ between composite classes and others, as one
    have hfinish (k : Class) : (if d.kind.isComposite then
        (do return (← k.installComposite o).resolved r) else .ok (k.resolved r)) = .ok c ↔
        ∃ k', (if d.kind.isComposite then k.installComposite o else .ok k) = .ok k' ∧
          c = k'.resolved r := by
      cases d.kind.isComposite with
      | true =>
        simp only [if_true, bind_eq_ok_iff]
        exact exists_congr fun k' => and_congr_right fun _ => ⟨fun h => by cases h; rfl,
          fun h => h ▸ rfl⟩
      | false => simp [eq_comm]
    constructor
    · rintro ⟨supers, hsupers, declared, hdeclared, n, hn, h⟩
      obtain ⟨k, hk, hc⟩ := (hfinish _).mp h
      exact ⟨supers, declared, _, n, k, hsupers, hdeclared, Prod.ext rfl hn, hk, hc⟩
    · rintro ⟨supers, declared, installed, n, k, hsupers, hdeclared, hinstall, hk, hc⟩
      refine ⟨supers, hsupers, declared, hdeclared, n, ?_, ?_⟩
      · rw [hinstall]
      · rw [hinstall]
        exact (hfinish installed).mpr ⟨k, hk, hc⟩

/-- Only composite classes get members of their own accord. -/
theorem steps_of_build (h : d.build r o = .ok c) :
    r.byFullName? d.fullName = none ∧ ∃ supers declared installed k n,
      d.findSupers r d.inherits [] = .ok supers ∧
      d.declareMembers (d.bare r supers) = .ok declared ∧
      declared.installBuiltins r o = (installed, .ok n) ∧
      (k = installed ∨ installed.installComposite o = .ok k) ∧ c = k.resolved r := by
  obtain ⟨hnew, supers, declared, installed, n, k, hsupers, hdeclared, hinstall, hk, rfl⟩ :=
    build_eq_ok_iff.mp h
  refine ⟨hnew, supers, declared, installed, k, n, hsupers, hdeclared, hinstall, ?_, rfl⟩
  split at hk
  · exact Or.inr hk
  · cases hk
    exact Or.inl rfl

/-- **How a definition that succeeds comes to its class**: its name is new, its
superclasses are found, members are added to the bare class, and the tables of
names are made. -/
theorem build_eq_ok (h : d.build r o = .ok c) :
    r.byFullName? d.fullName = none ∧ ∃ supers k, d.findSupers r d.inherits [] = .ok supers ∧
      (d.bare r supers).Grows k ∧ c = k.resolved r := by
  obtain ⟨hnew, supers, declared, installed, k, n, hsupers, hdeclared, hinstall, hk, rfl⟩ :=
    steps_of_build h
  have hgrows : (d.bare r supers).Grows installed :=
    (grows_of_declareMembers hdeclared).trans (Class.grows_of_installEach hinstall)
  refine ⟨hnew, supers, k, hsupers, ?_, rfl⟩
  rcases hk with rfl | hk
  · exact hgrows
  · exact hgrows.trans (Class.grows_of_installComposite hk)

end ClassDecl

end ObjectDispatch
