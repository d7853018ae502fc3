import ObjectDispatch.Proofs.History

/-!
# Classes and what their names mean

Classes are registered for good: at every later moment of a session a class has the
number, the members, the tables, the flags and the heritage that it was made with.
Full names tell all classes apart, so a full name means the class that has it.  Simple
names do not, and one that several classes share means none of them.

## Main definitions

* `Registry.HasFullName`, `Registry.HasName` — the classes that a name fits.

## Main results

* `Registry.Built.byFullName?_eq_some_iff` — a full name means the class that has it.
* `Registry.Built.lookup?_eq_some_iff` — **what a name means.**
* `classes_of_session` — all of it, at every moment of every session.
-/

namespace ObjectDispatch

namespace Registry

/-- The registered class `id` has the full name `n`. -/
def HasFullName (r : Registry) (n : String) (id : ClassId) : Prop :=
  ∃ c, r.get? id = some c ∧ c.fullName = n

/-- The registered class `id` has the simple name `n`. -/
def HasName (r : Registry) (n : String) (id : ClassId) : Prop :=
  ∃ c, r.get? id = some c ∧ c.name = n

namespace Built

variable {o : EngineOptions} {r : Registry} {c : Class} {n : String}

/-- No two classes have the same full name. -/
theorem nodup_fullNames (hr : r.Built o) : (r.classes.map (·.fullName)).Nodup := by
  induction hr with
  | empty => exact List.nodup_nil
  | @register r c d hr hbuild ih =>
    have hfresh := (hr.madeIn hbuild).fresh
    rw [Registry.register, List.map_append, List.map_singleton]
    refine nodup_concat_of_not_mem ih ?_
    intro hmem
    obtain ⟨k, hk, hname⟩ := List.mem_map.mp hmem
    exact hfresh k hk hname

/-- The classes of the registry are those that have numbers. -/
theorem mem_classes_iff (hr : r.Built o) : c ∈ r.classes ↔ r.get? c.id = some c :=
  ⟨hr.get?_of_mem, mem_of_get?⟩

/-- A full name means the class that has it. -/
theorem byFullName?_eq_some_iff (hr : r.Built o) :
    r.byFullName? n = some c ↔ r.get? c.id = some c ∧ c.fullName = n := by
  have hfilter (d : Class) :
      d ∈ r.classes.filter (·.fullName = n) ↔ r.get? d.id = some d ∧ d.fullName = n := by
    rw [List.mem_filter, hr.mem_classes_iff, decide_eq_true_iff]
  constructor
  · intro h
    exact (hfilter c).mp (List.mem_of_getLast? h)
  · intro hc
    cases hlast : r.byFullName? n with
    | none =>
      exact absurd hc.2 (byFullName?_eq_none_iff.mp hlast c (hr.mem_classes_iff.mpr hc.1))
    | some d =>
      -- the last one of that full name is the only one
      obtain ⟨hd, hdn⟩ := (hfilter d).mp (List.mem_of_getLast? hlast)
      have hid := hr.eq_of_fullName_eq hd hc.1 (hdn.trans hc.2.symm)
      rw [hid] at hd
      exact hd.symm.trans hc.1

/-- Of the classes with a simple name there is just one when no other number has it. -/
theorem filter_name_eq_singleton_iff (hr : r.Built o) :
    r.classes.filter (·.name = n) = [c] ↔
      r.get? c.id = some c ∧ ∀ k, r.HasName n k ↔ k = c.id := by
  have hfilter (d : Class) :
      d ∈ r.classes.filter (·.name = n) ↔ r.get? d.id = some d ∧ d.name = n := by
    rw [List.mem_filter, hr.mem_classes_iff, decide_eq_true_iff]
  have hnodup : (r.classes.filter (·.name = n)).Nodup := hr.nodup_fullNames.of_map.filter _
  constructor
  · intro h
    rw [h] at hfilter
    obtain ⟨hc, hname⟩ := (hfilter c).mp (List.mem_singleton_self c)
    refine ⟨hc, fun k => ⟨?_, ?_⟩⟩
    · rintro ⟨d, hd, hdn⟩
      have hid := hr.id_eq hd
      have hmem := (hfilter d).mpr ⟨by rw [hid, hd], hdn⟩
      rw [← hid, List.mem_singleton.mp hmem]
    · rintro rfl
      exact ⟨c, hc, hname⟩
  · rintro ⟨hc, honly⟩
    obtain ⟨c', hc', hname⟩ := (honly c.id).mpr rfl
    cases hc.symm.trans hc'
    -- both lists have the same members, and neither has one twice
    apply List.perm_singleton.mp
    apply (List.perm_ext_iff_of_nodup hnodup (List.nodup_singleton c)).mpr
    intro d
    rw [hfilter, List.mem_singleton]
    constructor
    · rintro ⟨hd, hdn⟩
      have hid := (honly d.id).mp ⟨d, hd, hdn⟩
      rw [hid, hc] at hd
      exact (Option.some.inj hd).symm
    · rintro rfl
      exact ⟨hc, hname⟩

/-- Having a full name, said of a number or of the class. -/
theorem hasFullName_iff (hr : r.Built o) {id : ClassId} :
    r.HasFullName n id ↔ ∃ c, r.byFullName? n = some c ∧ c.id = id := by
  constructor
  · rintro ⟨c, hc, hname⟩
    have hid := hr.id_eq hc
    exact ⟨c, hr.byFullName?_eq_some_iff.mpr ⟨by rw [hid, hc], hname⟩, hid⟩
  · rintro ⟨c, hc, rfl⟩
    obtain ⟨hget, hname⟩ := hr.byFullName?_eq_some_iff.mp hc
    exact ⟨c, hget, hname⟩

/-- Being the only class that has a simple name, said of a number or of the class. -/
theorem hasName_iff (hr : r.Built o) {id : ClassId} :
    (∀ k, r.HasName n k ↔ k = id) ↔ ∃ c, r.classes.filter (·.name = n) = [c] ∧ c.id = id := by
  constructor
  · intro honly
    obtain ⟨c, hc, -⟩ := (honly id).mpr rfl
    obtain rfl := hr.id_eq hc
    exact ⟨c, hr.filter_name_eq_singleton_iff.mpr ⟨hc, honly⟩, rfl⟩
  · rintro ⟨c, hc, rfl⟩
    exact (hr.filter_name_eq_singleton_iff.mp hc).2

/-- **What a name means**: an anchored name, the class that has it as its full name;
any other name, the class that has it as its full name in the global namespace, or
else the only class that has it as its simple name. -/
theorem lookup?_eq_some_iff (hr : r.Built o) {id : ClassId} :
    r.lookup? n = some id ↔
      Name.isAnchored n = true ∧ r.HasFullName n id ∨
      Name.isAnchored n = false ∧ (r.HasFullName ("::" ++ n) id ∨
        (∀ k, ¬ r.HasFullName ("::" ++ n) k) ∧ ∀ k, r.HasName n k ↔ k = id) := by
  unfold Registry.lookup?
  cases hanchored : Name.isAnchored n with
  | true => simp [hr.hasFullName_iff]
  | false =>
    cases hfull : r.byFullName? ("::" ++ n) with
    | some c =>
      have hthis (k : ClassId) : r.HasFullName ("::" ++ n) k ↔ c.id = k := by
        simp [hr.hasFullName_iff, hfull]
      simp [hthis]
    | none =>
      have hnone (k : ClassId) : ¬ r.HasFullName ("::" ++ n) k := by
        simp [hr.hasFullName_iff, hfull]
      simp only [Bool.false_eq_true, if_false, hnone, hr.hasName_iff]
      split <;> simp_all

end Built

end Registry

/-- **Classes are registered for good, and names are consistent**, at every moment of
every session.  The class at a position of the registry has that number, its
superclasses and the other classes of its heritage have smaller ones, and it is the
same class whatever happens next.  No two classes share a full name, and a name means
the class that `Registry.Built.lookup?_eq_some_iff` says. -/
theorem classes_of_session {o : EngineOptions} {w : World} {es : List Event}
    (h : Session.Stretch o w es) :
    (∀ (i : Nat) (c : Class), w.registry.classes[i]? = some c →
      c.id = ⟨i⟩ ∧ (∀ s ∈ c.supers, s.index < i) ∧
      (∀ k ∈ c.heritage, k ≠ c.id → k.index < i) ∧
      (w.replay es).registry.classes[i]? = some c) ∧
    (w.registry.classes.map (·.fullName)).Nodup ∧
    ∀ n id, w.findClass? n = some id ↔
      Name.isAnchored n = true ∧ w.registry.HasFullName n id ∨
      Name.isAnchored n = false ∧ (w.registry.HasFullName ("::" ++ n) id ∨
        (∀ k, ¬ w.registry.HasFullName ("::" ++ n) k) ∧ ∀ k, w.registry.HasName n k ↔ k = id) := by
  have hbuilt := h.sound.built
  refine ⟨?_, hbuilt.nodup_fullNames, fun n id => hbuilt.lookup?_eq_some_iff⟩
  intro i c hi
  have hc : w.registry.get? ⟨i⟩ = some c := hi
  have hid := hbuilt.id_eq hc
  have hgrows : w.registry.GrowsTo (w.replay es).registry := (World.leadsTo_replay w es).registry
  refine ⟨hid, fun s hs => hbuilt.index_lt_of_mem_supers hc hs, ?_, hgrows.get? hc⟩
  intro k hk hne
  rw [hid] at hne
  exact hbuilt.index_lt_of_mem_heritage hc hk hne

/-- Defines two classes with the same simple name. -/
def shapes : List Expr :=
  [.defineClass { name := "a::Shape" },
    .defineClass { name := "b::Shape", inherits := ["Shape"] }]

/-- The world in which the second class is defined. -/
def shapesWorld : World :=
  (World.initial {}).replay ((Session.history 0 (World.initial {}) shapes).take 1)

/-- What happens from there on. -/
def shapesSince : List Event := ((Session.history 0 (World.initial {}) shapes).drop 1).take 1

/-- The simple name means the first class as long as there is no second one, and the
first class stays as it is. -/
theorem classes_of_shapes :
    shapesWorld.findClass? "Shape" = some ⟨0⟩ ∧
    (∀ k, shapesWorld.registry.HasName "Shape" k ↔ k = ⟨0⟩) ∧
    (∃ c, shapesWorld.registry.get? ⟨0⟩ = some c ∧
      (shapesWorld.replay shapesSince).registry.get? ⟨0⟩ = some c) ∧
    (shapesWorld.replay shapesSince).findClass? "Shape" = none := by
  obtain ⟨hclasses, -, hnames⟩ :=
    classes_of_session (Session.stretch_of_history {} 0 shapes 1 1)
  have hfound : shapesWorld.findClass? "Shape" = some ⟨0⟩ := by decide +kernel
  have hfull : (shapesWorld.registry.get? ⟨0⟩).map (·.fullName) = some "::a::Shape" := by
    decide +kernel
  obtain ⟨c, hc, hname⟩ := Option.map_eq_some_iff.mp hfull
  refine ⟨hfound, ?_, ⟨c, hc, (hclasses 0 c hc).2.2.2⟩, by decide +kernel⟩
  rcases (hnames "Shape" ⟨0⟩).mp hfound with ⟨hanchored, -⟩ | ⟨-, ⟨d, hd, hdn⟩ | ⟨-, honly⟩⟩
  · exact absurd hanchored (by decide +kernel)
  · cases hc.symm.trans hd
    rw [hname] at hdn
    exact absurd hdn (by decide +kernel)
  · exact honly

end ObjectDispatch
