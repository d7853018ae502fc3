import ObjectDispatch.Proofs.Linearization
import ObjectDispatch.Proofs.Registration

/-!
# The heritage of a class

In a registry that definitions made, superclasses have smaller numbers than the
classes that inherit from them, so following the superclasses comes to an end on
every way.  The heritage that a class got when it was made is the class followed
by the heritages of its superclasses, of which the first of each class counts; it
holds what can be reached along superclasses; and no later class changes it.

## Main definitions

* `Registry.heritageOf` — the heritage of a registered class.
* `Registry.IsA` — a class and one of its heritage.
* `Registry.ReachesHeritages` — what the induction on the numbers of classes gives.

## Main results

* `Registry.Built.linearize_eq` — **later registries give the same heritage.**
* `Registry.Built.heritage_eq` — **a heritage put together from those of the
  superclasses.**
* `heritage_of_built` — all that heritages are.
-/

namespace ObjectDispatch

namespace Registry

variable {o : EngineOptions} {r r' : Registry} {id : ClassId} {c : Class}

/-- The heritage recorded for a class; none if it is not registered. -/
def heritageOf (r : Registry) (id : ClassId) : List ClassId :=
  ((r.get? id).map (·.heritage)).getD []

/-- The class `b` is in the heritage of the registered class `a`. -/
def IsA (r : Registry) (a b : ClassId) : Prop := ∃ c, r.get? a = some c ∧ b ∈ c.heritage

theorem heritageOf_eq (hc : r.get? id = some c) : r.heritageOf id = c.heritage := by
  simp [heritageOf, hc]

theorem supersOf_eq (hc : r.get? id = some c) : r.supersOf id = c.supers := by
  simp [supersOf, hc]

/-- Everything up to a registered number is registered. -/
theorem isSome_get?_of_le {k : ClassId} (h : k.index ≤ id.index) (hc : r.get? id = some c) :
    (r.get? k).isSome := by
  have hlt := index_lt_of_get? hc
  rw [isSome_get?_iff]
  omega

theorem inherits_of_mem_supers (hc : r.get? id = some c) {k : ClassId} (hk : k ∈ c.supers) :
    r.Inherits id k := by
  unfold Inherits
  rwa [supersOf_eq hc]

/-- A class that inherits is registered. -/
theorem Inherits.exists_get? {a b : ClassId} (h : r.Inherits a b) :
    ∃ c, r.get? a = some c ∧ b ∈ c.supers := by
  cases hget : r.get? a with
  | none => simp [Inherits, supersOf, hget] at h
  | some c => exact ⟨c, rfl, by rwa [Inherits, supersOf_eq hget] at h⟩

namespace Built

/-- What a class inherits from has a smaller number. -/
theorem index_lt_of_inherits (hr : r.Built o) {a b : ClassId} (h : r.Inherits a b) :
    b.index < a.index := by
  obtain ⟨c, hc, hb⟩ := h.exists_get?
  exact hr.index_lt_of_mem_supers hc hb

theorem index_le_of_reflTransGen (hr : r.Built o) {a b : ClassId}
    (h : Relation.ReflTransGen r.Inherits a b) : b.index ≤ a.index := by
  induction h with
  | refl => exact Nat.le_refl _
  | tail _ hbc ih => exact Nat.le_trans (Nat.le_of_lt (hr.index_lt_of_inherits hbc)) ih

/-- What a class inherits from is registered. -/
theorem isSome_get?_of_inherits (hr : r.Built o) {a b : ClassId} (h : r.Inherits a b) :
    (r.get? b).isSome := by
  obtain ⟨c, hc, -⟩ := h.exists_get?
  exact isSome_get?_of_le (Nat.le_of_lt (hr.index_lt_of_inherits h)) hc

theorem exists_get?_of_reflTransGen (hr : r.Built o) {a b : ClassId}
    (h : Relation.ReflTransGen r.Inherits a b) (ha : r.get? a = some c) :
    ∃ d, r.get? b = some d :=
  Option.isSome_iff_exists.mp (isSome_get?_of_le (hr.index_le_of_reflTransGen h) ha)

/-! ### Later registries -/

/-- The way from registered classes is the same in a later registry. -/
theorem explores_of_growsTo (hr : r.Built o) (hgrows : r.GrowsTo r')
    {pending visited result : List ClassId} (h : r.Explores pending visited result)
    (hpending : ∀ p ∈ pending, (r.get? p).isSome) : r'.Explores pending visited result := by
  induction h with
  | nil => exact .nil _
  | seen hnext _ ih => exact .seen hnext (ih fun p hp => hpending p (List.mem_cons_of_mem _ hp))
  | @fresh next pending _ _ hnext _ ih =>
    obtain ⟨c, hc⟩ := Option.isSome_iff_exists.mp (hpending next List.mem_cons_self)
    have hsupers : r'.supersOf next = r.supersOf next := by
      rw [supersOf_eq hc, supersOf_eq (hgrows.get? hc)]
    refine .fresh hnext ?_
    rw [hsupers]
    refine ih fun p hp => ?_
    rcases List.mem_append.mp hp with hp | hp
    · exact hr.isSome_get?_of_inherits hp
    · exact hpending p (List.mem_cons_of_mem _ hp)

/-- The heritage of a registered class is what is found from its superclasses. -/
theorem explores_heritage (hr : r.Built o) (hc : r.get? id = some c) :
    r.Explores (r.supersOf id) [id] c.heritage := by
  obtain ⟨r₀, hr₀, -, hmade, hgrows⟩ := hr.exists_madeIn hc
  rw [supersOf_eq hc, hmade.heritage_eq, hr.id_eq hc]
  exact hr₀.explores_of_growsTo ((growsTo_register r₀ c).trans hgrows)
    (explores_linearize r₀ id c.supers) hmade.supers

/-- **Later registries give the same heritage.** -/
theorem linearize_eq (hr : r.Built o) (hc : r.get? id = some c) (hgrows : r.GrowsTo r') :
    r'.linearize id c.supers = c.heritage := by
  rw [← supersOf_eq hc]
  exact (explores_linearize r' id (r.supersOf id)).unique (hr.explores_of_growsTo hgrows
    (hr.explores_heritage hc) fun _ hs => hr.isSome_get?_of_inherits hs)

/-! ### What a heritage holds -/

theorem nodup_heritage (hr : r.Built o) (hc : r.get? id = some c) : c.heritage.Nodup :=
  (hr.explores_heritage hc).nodup (List.nodup_singleton id)

/-- The heritage holds what can be reached along superclasses. -/
theorem mem_heritage_iff (hr : r.Built o) (hc : r.get? id = some c) {k : ClassId} :
    k ∈ c.heritage ↔ Relation.ReflTransGen r.Inherits id k :=
  (hr.explores_heritage hc).mem_iff

/-- The classes of a heritage are registered. -/
theorem exists_get?_of_mem_heritage (hr : r.Built o) (hc : r.get? id = some c) {k : ClassId}
    (hk : k ∈ c.heritage) : ∃ d, r.get? k = some d :=
  hr.exists_get?_of_reflTransGen ((hr.mem_heritage_iff hc).mp hk) hc

theorem isSome_of_mem_heritage (hr : r.Built o) (hc : r.get? id = some c) :
    ∀ k ∈ c.heritage, (r.get? k).isSome := by
  intro k hk
  obtain ⟨d, hd⟩ := hr.exists_get?_of_mem_heritage hc hk
  rw [hd]
  rfl

/-- The other classes of a heritage are registered before the class. -/
theorem index_lt_of_mem_heritage (hr : r.Built o) (hc : r.get? id = some c) {k : ClassId}
    (hk : k ∈ c.heritage) (hne : k ≠ id) : k.index < id.index := by
  have hle := hr.index_le_of_reflTransGen ((hr.mem_heritage_iff hc).mp hk)
  have hindex : k.index ≠ id.index := by
    intro h
    exact hne (by cases k; cases id; exact congrArg ClassId.mk h)
  omega

end Built

/-! ### A heritage put together -/

/-- With a class whose number is less than `m` its heritage has been visited. -/
def ClosedBelow (r : Registry) (m : Nat) (visited : List ClassId) : Prop :=
  ∀ x ∈ visited, x.index < m → r.heritageOf x ⊆ visited

/-- From registered classes whose numbers are less than `m` their heritages are
reached in turn. -/
def ReachesHeritages (r : Registry) (m : Nat) : Prop :=
  ∀ pending visited : List ClassId, (∀ p ∈ pending, p.index < m ∧ (r.get? p).isSome) →
    visited.Nodup → r.ClosedBelow m visited →
    r.Explores pending visited (visited ++ pending.flatMap r.heritageOf).eraseDups

theorem closedBelow_singleton (r : Registry) (id : ClassId) : r.ClosedBelow id.index [id] := by
  intro x hx hlt
  rw [List.mem_singleton] at hx
  subst hx
  exact absurd hlt (Nat.lt_irrefl _)

/-- A class does not count for what is below it. -/
theorem ClosedBelow.concat {m : Nat} {visited : List ClassId} (h : r.ClosedBelow m visited)
    (hid : id.index < m) : r.ClosedBelow id.index (visited ++ [id]) := by
  intro x hx hlt k hk
  rw [List.mem_append, List.mem_singleton] at hx
  rcases hx with hx | rfl
  · exact List.mem_append_left _ (h x hx (Nat.lt_trans hlt hid) hk)
  · exact absurd hlt (Nat.lt_irrefl _)

namespace Built

/-- What a class inherits from has a smaller number and is registered. -/
theorem below_of_inherits (hr : r.Built o) (s : ClassId) (hs : s ∈ r.supersOf id) :
    s.index < id.index ∧ (r.get? s).isSome :=
  ⟨hr.index_lt_of_inherits hs, hr.isSome_get?_of_inherits hs⟩

/-- A heritage holds the heritages of its classes. -/
theorem heritageOf_subset (hr : r.Built o) (hc : r.get? id = some c) {k : ClassId}
    (hk : k ∈ r.heritageOf id) : r.heritageOf k ⊆ r.heritageOf id := by
  intro x hx
  rw [heritageOf_eq hc, hr.mem_heritage_iff hc] at hk ⊢
  obtain ⟨d, hd⟩ := hr.exists_get?_of_reflTransGen hk hc
  rw [heritageOf_eq hd, hr.mem_heritage_iff hd] at hx
  exact hk.trans hx

theorem closedBelow_append_heritageOf (hr : r.Built o) (hc : r.get? id = some c) {m : Nat}
    {visited : List ClassId} (h : r.ClosedBelow m visited) :
    r.ClosedBelow m (visited ++ r.heritageOf id).eraseDups := by
  intro x hx hlt k hk
  rw [List.mem_eraseDups, List.mem_append] at hx ⊢
  rcases hx with hx | hx
  · exact Or.inl (h x hx hlt hk)
  · exact Or.inr (hr.heritageOf_subset hc hx hk)

/-- A heritage is put together where those of the superclasses are reached. -/
theorem heritage_eq_of_reachesHeritages (hr : r.Built o) (hc : r.get? id = some c)
    (h : r.ReachesHeritages id.index) :
    c.heritage = ([id] ++ (r.supersOf id).flatMap r.heritageOf).eraseDups :=
  (hr.explores_heritage hc).unique (h (r.supersOf id) [id] hr.below_of_inherits
    (List.nodup_singleton id) (r.closedBelow_singleton id))

theorem reachesHeritages (hr : r.Built o) (m : Nat) : r.ReachesHeritages m := by
  -- on the numbers, which become smaller along superclasses, and then on what is pending
  induction m using Nat.strongRecOn with
  | ind m ihm =>
    intro pending visited hpending hvisited hclosed
    induction pending generalizing visited with
    | nil =>
      rw [List.flatMap_nil, List.append_nil, eraseDups_of_nodup hvisited]
      exact .nil visited
    | cons p pending ih =>
      have ih := fun visited => ih visited fun q hq => hpending q (List.mem_cons_of_mem p hq)
      obtain ⟨hlt, hp⟩ := hpending p List.mem_cons_self
      rw [List.flatMap_cons, ← List.append_assoc]
      by_cases hmem : p ∈ visited
      · -- with the class its heritage has been visited
        rw [← eraseDups_eraseDups_append, eraseDups_append_of_subset (hclosed p hmem hlt),
          eraseDups_of_nodup hvisited]
        exact .seen hmem (ih visited hvisited hclosed)
      · -- the class comes first, then the heritages of its superclasses, then what is pending
        obtain ⟨c, hc⟩ := Option.isSome_iff_exists.mp hp
        have hfirst : r.Explores (r.supersOf p) (visited ++ [p])
            (visited ++ r.heritageOf p).eraseDups := by
          rw [heritageOf_eq hc, hr.heritage_eq_of_reachesHeritages hc (ihm p.index hlt),
            eraseDups_append_eraseDups, ← List.append_assoc]
          exact ihm p.index hlt (r.supersOf p) (visited ++ [p]) hr.below_of_inherits
            (nodup_concat_of_not_mem hvisited hmem) (hclosed.concat hlt)
        have hrest := ih _ (nodup_eraseDups (visited ++ r.heritageOf p))
          (hr.closedBelow_append_heritageOf hc hclosed)
        rw [eraseDups_eraseDups_append] at hrest
        exact .fresh hmem (hfirst.append hrest)

/-- **A heritage put together from those of the superclasses**: the class, then
the heritages of its superclasses, of which the first of each class counts. -/
theorem heritage_eq (hr : r.Built o) (hc : r.get? id = some c) :
    c.heritage = (id :: c.supers.flatMap r.heritageOf).eraseDups := by
  rw [← supersOf_eq hc]
  exact hr.heritage_eq_of_reachesHeritages hc (hr.reachesHeritages id.index)

/-! ### The order of inheritance -/

theorem isA_iff (hr : r.Built o) {a b : ClassId} (ha : (r.get? a).isSome) :
    r.IsA a b ↔ Relation.ReflTransGen r.Inherits a b := by
  obtain ⟨c, hc⟩ := Option.isSome_iff_exists.mp ha
  constructor
  · rintro ⟨c, hc, hb⟩
    exact (hr.mem_heritage_iff hc).mp hb
  · exact fun h => ⟨c, hc, (hr.mem_heritage_iff hc).mpr h⟩

end Built

theorem IsA.isSome {a b : ClassId} (h : r.IsA a b) : (r.get? a).isSome := by
  obtain ⟨c, hc, -⟩ := h
  rw [hc]
  rfl

namespace Built

theorem isA_trans (hr : r.Built o) {a b k : ClassId} (hab : r.IsA a b) (hbk : r.IsA b k) :
    r.IsA a k := by
  rw [hr.isA_iff hbk.isSome] at hbk
  have ha := hab.isSome
  rw [hr.isA_iff ha] at hab ⊢
  exact hab.trans hbk

theorem isA_antisymm (hr : r.Built o) {a b : ClassId} (hab : r.IsA a b) (hba : r.IsA b a) :
    a = b := by
  rw [hr.isA_iff hab.isSome] at hab
  rw [hr.isA_iff hba.isSome] at hba
  have hle := hr.index_le_of_reflTransGen hab
  have hge := hr.index_le_of_reflTransGen hba
  cases a
  cases b
  simp only [ClassId.mk.injEq] at hle hge ⊢
  omega

/-- What holds of a class and passes on to its superclasses holds of all that it inherits
from, but for those to which the way leads past a class where it stops. -/
theorem holds_or_stops (hr : r.Built o) {P Q : ClassId → Prop} {a b : ClassId} (hab : r.IsA a b)
    (ha : P a ∨ Q a) (hpass : ∀ d s, s ∈ r.supersOf d → P d → P s ∨ Q s) :
    P b ∨ ∃ d, r.IsA a d ∧ r.IsA d b ∧ Q d := by
  obtain ⟨c, hc⟩ := Option.isSome_iff_exists.mp hab.isSome
  have hself {d : ClassId} (hd : Relation.ReflTransGen r.Inherits a d) : r.IsA d d := by
    obtain ⟨c', hc'⟩ := hr.exists_get?_of_reflTransGen hd hc
    exact ⟨c', hc', (hr.mem_heritage_iff hc').mpr .refl⟩
  rw [hr.isA_iff hab.isSome] at hab
  induction hab with
  | refl => exact ha.imp_right fun hQ => ⟨a, hself .refl, hself .refl, hQ⟩
  | @tail d s hd hds ih =>
    have hs := hd.tail hds
    have has : r.IsA a s := (hr.isA_iff (hself .refl).isSome).mpr hs
    rcases ih with hP | ⟨e, hae, hed, hQ⟩
    · exact (hpass d s hds hP).imp_right fun hQ => ⟨s, has, hself hs, hQ⟩
    · have hds : r.IsA d s := (hr.isA_iff (hself hd).isSome).mpr (.single hds)
      exact Or.inr ⟨e, hae, hr.isA_trans hed hds, hQ⟩

end Built

end Registry

/-- What `objectIsA` answers is whether the class is in the heritage. -/
theorem World.objectIsA_eq {w : World} {id : ObjectId} {ob : Object} {c : Class} (b : ClassId)
    (hob : w.objects.get? id = some ob) (hc : w.registry.get? ob.cls = some c) :
    ∃ answer, w.objectIsA id b = .ok answer ∧ (answer = true ↔ w.registry.IsA ob.cls b) := by
  refine ⟨c.heritage.contains b, ?_, ?_⟩
  · unfold objectIsA
    rw [classOf_eq hob hc]
    rfl
  · rw [List.contains_iff_mem]
    exact ⟨fun h => ⟨c, hc, h⟩, fun ⟨d, hd, h⟩ => by cases hc.symm.trans hd; exact h⟩

/-- **All that heritages are**, in a registry that any sequence of definitions
made: the class followed by the heritages of its superclasses, of which the first
of each class counts; the classes that can be reached along superclasses, each
once; and the same in every later registry.  To be in the heritage of a class is
reflexive, transitive and antisymmetric, and it is what `objectIsA` answers. -/
theorem heritage_of_built {o : EngineOptions} {r : Registry} (hr : r.Built o) :
    (∀ id c, r.get? id = some c →
      c.heritage = (c.id :: c.supers.flatMap r.heritageOf).eraseDups ∧
      c.heritage.Nodup ∧
      (∀ k, k ∈ c.heritage ↔ Relation.ReflTransGen r.Inherits c.id k) ∧
      (∀ k ∈ c.heritage, (r.get? k).isSome) ∧
      ∀ r', r.GrowsTo r' → r'.linearize c.id c.supers = c.heritage) ∧
    (∀ a, (r.get? a).isSome → r.IsA a a) ∧
    (∀ a b k, r.IsA a b → r.IsA b k → r.IsA a k) ∧
    (∀ a b, r.IsA a b → r.IsA b a → a = b) ∧
    ∀ w : World, w.registry = r → ∀ id ob, w.objects.get? id = some ob →
      (r.get? ob.cls).isSome → ∀ b,
        ∃ answer, w.objectIsA id b = .ok answer ∧ (answer = true ↔ r.IsA ob.cls b) := by
  refine ⟨?_, ?_, fun _ _ _ => hr.isA_trans, fun _ _ => hr.isA_antisymm, ?_⟩
  · intro id c hc
    rw [hr.id_eq hc]
    refine ⟨hr.heritage_eq hc, hr.nodup_heritage hc, fun k => hr.mem_heritage_iff hc, ?_,
      fun r' => hr.linearize_eq hc⟩
    intro k hk
    exact Option.isSome_iff_exists.mpr (hr.exists_get?_of_mem_heritage hc hk)
  · intro a ha
    exact (hr.isA_iff ha).mpr .refl
  · rintro w rfl id ob hob hcls b
    obtain ⟨c, hc⟩ := Option.isSome_iff_exists.mp hcls
    exact World.objectIsA_eq b hob hc

/-- Defines four classes, the last of which inherits from the first along two
ways, and creates an object of the last. -/
def diamond : Expr :=
  .sequence [
    .defineClass { name := "Base" },
    .defineClass { name := "Left", inherits := ["Base"] },
    .defineClass { name := "Right", inherits := ["Base"] },
    .defineClass { name := "Both", inherits := ["Left", "Right"] },
    .create (some (.const (.str "Both"))) (.const (.str "b")) []]

/-- The world after the definition of the four classes. -/
def diamondWorld : World := (Session.step 0 (World.initial {}) diamond).2.world

theorem diamondWorld_reachable : Session.Reachable {} diamondWorld :=
  (Session.Between.next diamond .start (by decide +kernel)).reachable

/-- The class that is reached along two ways stands where it is reached first. -/
theorem heritage_of_diamond :
    diamondWorld.registry.heritageOf ⟨3⟩ = [⟨3⟩, ⟨1⟩, ⟨0⟩, ⟨2⟩] ∧
    (∀ k, k ∈ diamondWorld.registry.heritageOf ⟨3⟩ ↔
      Relation.ReflTransGen diamondWorld.registry.Inherits ⟨3⟩ k) ∧
    diamondWorld.registry.IsA ⟨3⟩ ⟨3⟩ ∧
    ∃ answer, diamondWorld.objectIsA ⟨1⟩ ⟨0⟩ = .ok answer ∧
      (answer = true ↔ diamondWorld.registry.IsA ⟨3⟩ ⟨0⟩) := by
  obtain ⟨hclasses, hrefl, -, -, hanswer⟩ := heritage_of_built diamondWorld_reachable.built
  have hboth : (diamondWorld.registry.get? ⟨3⟩).isSome := by decide +kernel
  obtain ⟨c, hc⟩ := Option.isSome_iff_exists.mp hboth
  have hb : (diamondWorld.objects.get? ⟨1⟩).map (·.cls) = some ⟨3⟩ := by decide +kernel
  obtain ⟨b, hlive, hcls⟩ := Option.map_eq_some_iff.mp hb
  refine ⟨by decide +kernel, ?_, hrefl ⟨3⟩ hboth, ?_⟩
  · obtain ⟨-, -, hmem, -⟩ := hclasses ⟨3⟩ c hc
    rw [Registry.heritageOf_eq hc]
    rwa [diamondWorld_reachable.built.id_eq hc] at hmem
  · rw [← hcls] at hboth ⊢
    exact hanswer diamondWorld rfl ⟨1⟩ b hlive hboth ⟨0⟩

end ObjectDispatch
