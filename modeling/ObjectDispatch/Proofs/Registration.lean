import ObjectDispatch.Proofs.Changes
import ObjectDispatch.Proofs.Definition
import ObjectDispatch.Proofs.Reachability

/-!
# Registries that definitions make

A registry grows by one class at a time, and each class is what a definition made
in the registry of that moment.  So the number of a class is its position, its
superclasses were registered before it, and no two classes share a full name.
What was registered stays as it is.

## Main definitions

* `Registry.Built` — the registries that sequences of definitions make.
* `Registry.GrowsTo` — a registry with further classes.
* `Class.MadeIn` — what a class has from the registry in which it was made.

## Main results

* `Registry.Built.exists_madeIn` — **every registered class was made in a registry
  that has grown to this one.**
* `Registry.Built.eq_of_fullName_eq` — a full name means at most one class.
* `Session.Reachable.built` — the registry of a reachable world.
* `Session.classesRegistered_after` — the classes of the live objects stay registered.
-/

namespace ObjectDispatch

namespace Registry

/-- The registries that sequences of definitions make, with the options `o`. -/
inductive Built (o : EngineOptions) : Registry → Prop where
  /-- No class has been defined. -/
  | empty : Built o {}
  /-- A definition has made a further class. -/
  | register {r : Registry} {c : Class} (d : ClassDecl Expr) (hr : Built o r)
      (hc : d.build r o = .ok c) : Built o (r.register c)

/-- `r'` is `r` with further classes. -/
def GrowsTo (r r' : Registry) : Prop := r.classes <+: r'.classes

variable {r r' r'' : Registry}

theorem GrowsTo.refl (r : Registry) : r.GrowsTo r := List.prefix_refl _

theorem GrowsTo.trans (h : r.GrowsTo r') (h' : r'.GrowsTo r'') : r.GrowsTo r'' :=
  List.IsPrefix.trans h h'

theorem growsTo_register (r : Registry) (c : Class) : r.GrowsTo (r.register c) :=
  List.prefix_append _ _

/-- What was registered stays as it is. -/
theorem GrowsTo.get? (h : r.GrowsTo r') {id : ClassId} {c : Class} (hc : r.get? id = some c) :
    r'.get? id = some c := by
  obtain ⟨further, hfurther⟩ := h
  have hlt : id.index < r.classes.length := (List.getElem?_eq_some_iff.mp hc).1
  unfold Registry.get? at hc ⊢
  rw [← hfurther, List.getElem?_append_left hlt, hc]

theorem GrowsTo.isSome_get? (h : r.GrowsTo r') {id : ClassId} (hid : (r.get? id).isSome) :
    (r'.get? id).isSome := by
  obtain ⟨c, hc⟩ := Option.isSome_iff_exists.mp hid
  exact Option.isSome_iff_exists.mpr ⟨c, h.get? hc⟩

theorem index_lt_of_get? {id : ClassId} {c : Class} (hc : r.get? id = some c) :
    id.index < r.nextId.index :=
  (List.getElem?_eq_some_iff.mp hc).1

theorem isSome_get?_iff {id : ClassId} : (r.get? id).isSome ↔ id.index < r.nextId.index := by
  simp [Registry.get?, nextId]

theorem mem_of_get? {id : ClassId} {c : Class} (hc : r.get? id = some c) : c ∈ r.classes :=
  List.mem_of_getElem? hc

/-- What is registered after a class has been, was before or is that class. -/
theorem get?_register_eq_some_iff {c k : Class} {id : ClassId} :
    (r.register c).get? id = some k ↔ r.get? id = some k ∨ id = r.nextId ∧ k = c := by
  constructor
  · intro h
    by_cases hlt : id.index < r.classes.length
    · rw [get?_register_lt c hlt] at h
      exact Or.inl h
    · -- there is one number more than before
      have hid : id = r.nextId := by
        have hle := index_lt_of_get? h
        rw [nextId_register] at hle
        cases id
        simp only [nextId, ClassId.mk.injEq] at hlt hle ⊢
        omega
      rw [hid, get?_register_nextId] at h
      exact Or.inr ⟨hid, by simpa using h.symm⟩
  · rintro (h | ⟨rfl, rfl⟩)
    · exact (growsTo_register r c).get? h
    · exact get?_register_nextId r k

theorem byFullName?_eq_none_iff {n : String} :
    r.byFullName? n = none ↔ ∀ c ∈ r.classes, c.fullName ≠ n := by
  simp [byFullName?]

/-- A name means a registered class or none. -/
theorem exists_of_lookup? {n : String} {id : ClassId} (h : r.lookup? n = some id) :
    ∃ c ∈ r.classes, c.id = id := by
  have hfull {m : String} {c : Class} (hc : r.byFullName? m = some c) : c ∈ r.classes :=
    (List.mem_filter.mp (List.mem_of_getLast? hc)).1
  unfold lookup? at h
  split at h
  · obtain ⟨c, hc, rfl⟩ := Option.map_eq_some_iff.mp h
    exact ⟨c, hfull hc, rfl⟩
  · split at h
    · next c hc => exact ⟨c, hfull hc, by simpa using h⟩
    · split at h
      · next c hc =>
        -- the only class of that simple name
        have hmem : c ∈ r.classes.filter (·.name = n) := by
          rw [hc]
          exact List.mem_singleton_self c
        exact ⟨c, (List.mem_filter.mp hmem).1, by simpa using h⟩
      · cases h

end Registry

namespace ClassDecl

variable {d : ClassDecl Expr} {r : Registry} {o : EngineOptions} {c : Class}

/-- Superclasses are classes of the registry. -/
theorem exists_of_findSupers {ns : List String} {found supers : List ClassId}
    (h : d.findSupers r ns found = .ok supers) :
    ∀ s ∈ supers, s ∈ found ∨ ∃ c ∈ r.classes, c.id = s := by
  induction ns generalizing found with
  | nil =>
    cases h
    exact fun s hs => Or.inl hs
  | cons n ns ih =>
    unfold findSupers at h
    split at h
    · cases h
    · next id hid =>
      split at h
      · cases h
      · intro s hs
        rcases ih h s hs with hs | hs
        · rw [List.mem_append, List.mem_singleton] at hs
          rcases hs with hs | rfl
          · exact Or.inl hs
          · exact Or.inr (Registry.exists_of_lookup? hid)
        · exact Or.inr hs

theorem id_eq_of_build (h : d.build r o = .ok c) : c.id = r.nextId := by
  obtain ⟨-, supers, k, -, hk, rfl⟩ := build_eq_ok h
  exact hk.id_eq

end ClassDecl

namespace Class

/-- What the class has from the registry in which it was made. -/
structure MadeIn (c : Class) (r : Registry) : Prop where
  id_eq : c.id = r.nextId
  supers : ∀ s ∈ c.supers, (r.get? s).isSome
  heritage_eq : c.heritage = r.linearize c.id c.supers
  formed : c.Formed
  resolved_eq : c.resolved r = c
  anchored : Name.isAnchored c.fullName
  fresh : ∀ k ∈ r.classes, k.fullName ≠ c.fullName

/-- The tables that a class has are not looked at when they are made. -/
theorem resolved_resolved (c : Class) (r : Registry) :
    (c.resolved r).resolved r = c.resolved r := by
  have hlineage {β : Type} (g : Class → List β) (hg : g (c.resolved r) = g c) :
      ((c.resolved r).lineage r).flatMap g = (c.lineage r).flatMap g := by
    unfold lineage
    show (List.filterMap _ c.heritage).flatMap g = _
    induction c.heritage with
    | nil => rfl
    | cons id ids ih =>
      by_cases hid : id = c.id
      · -- the class stands in its own heritage, with the tables or without
        subst hid
        have hid' : c.id = (c.resolved r).id := rfl
        simp only [List.filterMap_cons, if_pos hid', if_true, List.flatMap_cons, ih, hg]
      · have hid' : id ≠ (c.resolved r).id := hid
        cases hget : r.get? id with
        | none => simp only [List.filterMap_cons, if_neg hid, if_neg hid', hget, ih]
        | some k =>
          simp only [List.filterMap_cons, if_neg hid, if_neg hid', hget, List.flatMap_cons, ih]
  have hvars := hlineage (·.ownVariables.toList) rfl
  have hfuns := hlineage (·.functions.toList) rfl
  simp only [resolved] at hvars hfuns ⊢
  rw [hvars, hfuns]

end Class

namespace Registry

variable {o : EngineOptions} {r : Registry}

/-- The number of a class is its position. -/
theorem Built.id_eq (hr : r.Built o) {id : ClassId} {c : Class} (hc : r.get? id = some c) :
    c.id = id := by
  induction hr with
  | empty => cases hc
  | register d hr hbuild ih =>
    rw [get?_register_eq_some_iff] at hc
    rcases hc with hc | ⟨rfl, rfl⟩
    · exact ih hc
    · exact ClassDecl.id_eq_of_build hbuild

theorem Built.get?_of_mem (hr : r.Built o) {c : Class} (hc : c ∈ r.classes) :
    r.get? c.id = some c := by
  obtain ⟨i, hi⟩ := List.mem_iff_getElem?.mp hc
  have hget : r.get? ⟨i⟩ = some c := hi
  rw [hr.id_eq hget]
  exact hget

/-- What a definition makes in a registry that definitions made. -/
theorem Built.madeIn (hr : r.Built o) {d : ClassDecl Expr} {c : Class}
    (h : d.build r o = .ok c) : c.MadeIn r := by
  obtain ⟨hnew, supers, k, hsupers, hk, rfl⟩ := ClassDecl.build_eq_ok h
  refine ⟨?_, ?_, ?_, ?_, k.resolved_resolved r, ?_, ?_⟩
  · show k.id = r.nextId
    rw [hk.id_eq]
    rfl
  · -- nothing was found before the first superclass
    intro s hs
    have hs : s ∈ k.supers := hs
    rw [hk.supers_eq] at hs
    rcases ClassDecl.exists_of_findSupers hsupers s hs with hs | ⟨c, hc, rfl⟩
    · cases hs
    · rw [hr.get?_of_mem hc]
      rfl
  · show k.heritage = r.linearize k.id k.supers
    rw [hk.heritage_eq, hk.id_eq, hk.supers_eq]
    rfl
  · obtain ⟨hfunctions, hvariables, hstores⟩ := hk.formed (d.formed_bare r supers)
    exact ⟨hfunctions, hvariables, hstores⟩
  · show Name.isAnchored k.fullName
    rw [hk.fullName_eq]
    exact Name.isAnchored_anchor d.name
  · intro c hc
    show c.fullName ≠ k.fullName
    rw [hk.fullName_eq]
    exact byFullName?_eq_none_iff.mp hnew c hc

/-- **Every registered class was made in a registry that has grown to this one.** -/
theorem Built.exists_madeIn (hr : r.Built o) {id : ClassId} {c : Class}
    (hc : r.get? id = some c) :
    ∃ r₀ : Registry, r₀.Built o ∧ r₀.nextId = id ∧ c.MadeIn r₀ ∧ (r₀.register c).GrowsTo r := by
  induction hr with
  | empty => cases hc
  | @register r k d hr hbuild ih =>
    rw [get?_register_eq_some_iff] at hc
    rcases hc with hc | ⟨rfl, rfl⟩
    · obtain ⟨r₀, hr₀, hid, hmade, hgrows⟩ := ih hc
      exact ⟨r₀, hr₀, hid, hmade, hgrows.trans (growsTo_register r k)⟩
    · exact ⟨r, hr, rfl, hr.madeIn hbuild, .refl _⟩

/-- A full name means at most one class. -/
theorem Built.eq_of_fullName_eq (hr : r.Built o) {a b : ClassId} {c d : Class}
    (hc : r.get? a = some c) (hd : r.get? b = some d) (h : c.fullName = d.fullName) : a = b := by
  induction hr with
  | empty => cases hc
  | @register r k decl hr hbuild ih =>
    have hfresh := (hr.madeIn hbuild).fresh
    rw [get?_register_eq_some_iff] at hc hd
    -- the latest class has a name that no class before it has
    rcases hc with hc | ⟨rfl, rfl⟩
    · rcases hd with hd | ⟨rfl, rfl⟩
      · exact ih hc hd
      · exact absurd h (hfresh c (mem_of_get? hc))
    · rcases hd with hd | ⟨rfl, rfl⟩
      · exact absurd h.symm (hfresh d (mem_of_get? hd))
      · rfl

/-- Superclasses are registered before the class. -/
theorem Built.index_lt_of_mem_supers (hr : r.Built o) {id s : ClassId} {c : Class}
    (hc : r.get? id = some c) (hs : s ∈ c.supers) : s.index < id.index := by
  obtain ⟨r₀, -, rfl, hmade, -⟩ := hr.exists_madeIn hc
  exact isSome_get?_iff.mp (hmade.supers s hs)

end Registry

/-! ### Reachable worlds -/

namespace World

variable {w : World} {id : ObjectId} {ob : Object} {c : Class}

theorem growsTo_after (w : World) (e : Event) : w.registry.GrowsTo (w.after e).registry := by
  cases e with
  | classRegistered c => exact w.registry.growsTo_register c
  | _ => exact .refl _

theorem objectAt_eq (hob : w.objects.get? id = some ob) : w.objectAt id = .ok ob := by
  unfold objectAt
  rw [hob]

theorem classAt_eq {k : ClassId} (hc : w.registry.get? k = some c) : w.classAt k = .ok c := by
  unfold classAt
  rw [hc]

theorem context_eq {g : Frame} (hg : w.stack.current? = some g) :
    w.context = .ok (g.scope, g.object) := by
  unfold context
  rw [hg]

theorem classOf_eq (hob : w.objects.get? id = some ob) (hc : w.registry.get? ob.cls = some c) :
    w.classOf id = .ok c := by
  unfold classOf
  rw [objectAt_eq hob]
  exact classAt_eq hc

end World

namespace Session

variable {o : EngineOptions} {w : World}

/-- An admitted event leaves a registry that definitions made. -/
theorem built_after {w : World} {e : Event} (hw : w.registry.Built w.options)
    (he : w.Admits e) : (w.after e).registry.Built (w.after e).options := by
  rw [options_after]
  cases e with
  | classRegistered c =>
    obtain ⟨d, hd⟩ := he
    exact .register d hw hd
  | _ => exact hw

theorem Reachable.built (hw : Reachable o w) : w.registry.Built o := by
  have h := hw.induct (I := fun w => w.registry.Built w.options) .empty fun _ _ => built_after
  rwa [hw.options_eq] at h

/-- The classes of the live objects are registered. -/
def ClassesRegistered (w : World) : Prop :=
  ∀ id ob, w.objects.get? id = some ob → (w.registry.get? ob.cls).isSome

/-- An admitted event leaves the classes of the live objects registered. -/
theorem classesRegistered_after {w : World} {e : Event} (hw : ClassesRegistered w)
    (he : w.Admits e) : ClassesRegistered (w.after e) := by
  intro id ob' hob'
  have hgrows := w.growsTo_after e
  rcases World.cases_of_get?_after hob' with ⟨ob, hob, rfl⟩ | ⟨-, name, cls, rfl, -, rfl⟩
  · rw [Event.change_cls]
    exact hgrows.isSome_get? (hw id ob hob)
  · exact he.2

end Session

end ObjectDispatch
