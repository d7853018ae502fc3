import ObjectDispatch.Proofs.Heritage

/-!
# Where the visits of a traversal end

Superclasses are followed depth first: the visit of a class begins, its superclasses are
visited one after the other, and then it ends.  What has been visited is passed over.  So
each class of the heritage has one visit.  The visits begin in the order of the heritage.
They end in postorder, each after the visits of all the classes that it inherits from.

The postorder of a class is put together from those of its superclasses, of which the first
of each class counts, and the class itself, which comes last.

## Main definitions

* `Visit` — the two moments of a visit.
* `Registry.Traverses` — the visits from what is pending, where some classes have been
  visited.
* `Registry.postorderOf` — the postorder of a class.
* `Registry.AncestorsFirst` — a list in which ancestors come first.

## Main results

* `Registry.Traverses.begun_eq` — **visits begin in heritage order.**
* `Registry.Traverses.ended_eq` — **visits end in postorder.**
* `Registry.Built.ancestorsFirst_postorderOf` — in a postorder, ancestors come first.
-/

namespace ObjectDispatch

/-- A moment of a traversal. -/
inductive Visit where
  /-- The visit of a class begins. -/
  | begins (k : ClassId) : Visit
  /-- The superclasses of the class have been visited, and its visit ends. -/
  | ends (k : ClassId) : Visit
  deriving DecidableEq, Repr

namespace Visit

/-- The classes whose visits begin. -/
def begun : List Visit → List ClassId
  | [] => []
  | .begins k :: vs => k :: begun vs
  | .ends _ :: vs => begun vs

/-- The classes whose visits end. -/
def ended : List Visit → List ClassId
  | [] => []
  | .begins _ :: vs => ended vs
  | .ends k :: vs => k :: ended vs

theorem begun_append (us vs : List Visit) : begun (us ++ vs) = begun us ++ begun vs := by
  induction us with
  | nil => rfl
  | cons u us ih => cases u <;> simp [begun, ih]

theorem ended_append (us vs : List Visit) : ended (us ++ vs) = ended us ++ ended vs := by
  induction us with
  | nil => rfl
  | cons u us ih => cases u <;> simp [ended, ih]

/-- The visit of a class, with what is visited in between, and what comes after it. -/
theorem begun_visit (k : ClassId) (us vs : List Visit) :
    begun (.begins k :: (us ++ .ends k :: vs)) = k :: (begun us ++ begun vs) := by
  simp [begun, begun_append]

theorem ended_visit (k : ClassId) (us vs : List Visit) :
    ended (.begins k :: (us ++ .ends k :: vs)) = ended us ++ k :: ended vs := by
  simp [ended, ended_append]

end Visit

namespace Registry

open Visit

variable {o : EngineOptions} {r : Registry} {id : ClassId} {c : Class}
variable {pending visited : List ClassId} {vs : List Visit}

/-- From the classes in `pending`, where those of `visited` have been visited, the
traversal makes these visits. -/
inductive Traverses (r : Registry) : (pending visited : List ClassId) → List Visit → Prop where
  /-- Nothing is pending. -/
  | nil (visited : List ClassId) : Traverses r [] visited []
  /-- A class that has been visited is passed over. -/
  | seen {next : ClassId} {pending visited : List ClassId} {vs : List Visit}
      (hnext : next ∈ visited) (h : Traverses r pending visited vs) :
      Traverses r (next :: pending) visited vs
  /-- A class is visited with its superclasses, and then what else is pending. -/
  | fresh {next : ClassId} {pending visited : List ClassId} {us vs : List Visit}
      (hnext : next ∉ visited) (hsupers : Traverses r (r.supersOf next) (visited ++ [next]) us)
      (h : Traverses r pending (visited ++ next :: begun us) vs) :
      Traverses r (next :: pending) visited (.begins next :: (us ++ .ends next :: vs))

/-- What is pending is visited one after the other. -/
theorem Traverses.append {pending' : List ClassId} {vs' : List Visit}
    (h : r.Traverses pending visited vs) (h' : r.Traverses pending' (visited ++ begun vs) vs') :
    r.Traverses (pending ++ pending') visited (vs ++ vs') := by
  induction h with
  | nil visited =>
    rw [begun, List.append_nil] at h'
    exact h'
  | seen hnext _ ih => exact .seen hnext (ih h')
  | @fresh next pending visited us vs hnext hsupers _ _ ih =>
    rw [List.cons_append, List.cons_append, List.append_assoc, List.cons_append]
    refine .fresh hnext hsupers (ih ?_)
    rw [begun_visit] at h'
    rwa [List.append_assoc, List.cons_append]

/-! ### Where visits begin -/

/-- Visits begin where classes are reached. -/
theorem Traverses.explores (h : r.Traverses pending visited vs) :
    r.Explores pending visited (visited ++ begun vs) := by
  induction h with
  | nil visited =>
    rw [begun, List.append_nil]
    exact .nil visited
  | seen hnext _ ih => exact .seen hnext ih
  | @fresh next _ visited us vs hnext _ _ ih ih' =>
    rw [begun_visit]
    refine .fresh hnext (ih.append ?_)
    simpa using ih'

/-- **Visits begin in heritage order.** -/
theorem Traverses.begun_eq (h : r.Traverses [id] [] vs) (hr : r.Built o)
    (hc : r.get? id = some c) : begun vs = c.heritage := by
  have hexplores : r.Explores [id] [] c.heritage := by
    refine .fresh List.not_mem_nil ?_
    rw [List.append_nil]
    exact hr.explores_heritage hc
  exact h.explores.unique hexplores

/-- Each visit that begins ends. -/
theorem Traverses.perm (h : r.Traverses pending visited vs) : (ended vs).Perm (begun vs) := by
  induction h with
  | nil => exact .nil
  | seen _ _ ih => exact ih
  | fresh _ _ _ ih ih' =>
    rw [begun_visit, ended_visit]
    exact List.perm_middle.trans ((ih.append ih').cons _)

/-! ### The postorder -/

/-- The postorder of a class, where at most so many classes are nested. -/
def postorder (r : Registry) : (depth : Nat) → ClassId → List ClassId
  | 0, _ => []
  | depth + 1, k => ((r.supersOf k).flatMap (r.postorder depth) ++ [k]).eraseDups

/-- The postorder of a class: those of its superclasses, of which the first of each class
counts, and the class at the end.  Superclasses have smaller numbers. -/
def postorderOf (r : Registry) (k : ClassId) : List ClassId := r.postorder (k.index + 1) k

namespace Built

/-- With enough depth the postorder does not depend on it. -/
theorem postorder_eq (hr : r.Built o) {depth : Nat} {k : ClassId} (h : k.index < depth) :
    r.postorder depth k = r.postorderOf k := by
  induction depth using Nat.strongRecOn generalizing k with
  | ind depth ih =>
    cases depth with
    | zero => exact absurd h (Nat.not_lt_zero _)
    | succ depth =>
      have hsupers : (r.supersOf k).flatMap (r.postorder depth) =
          (r.supersOf k).flatMap (r.postorder k.index) := by
        refine List.flatMap_congr fun s hs => ?_
        have hlt := (hr.below_of_inherits s hs).1
        rw [ih depth (Nat.lt_succ_self _) (by omega), ih k.index h hlt]
      rw [postorder, hsupers]
      rfl

theorem postorderOf_eq (hr : r.Built o) (k : ClassId) :
    r.postorderOf k = ((r.supersOf k).flatMap r.postorderOf ++ [k]).eraseDups := by
  have hsupers : (r.supersOf k).flatMap (r.postorder k.index) =
      (r.supersOf k).flatMap r.postorderOf :=
    List.flatMap_congr fun s hs => hr.postorder_eq (hr.below_of_inherits s hs).1
  rw [postorderOf, postorder, hsupers]

/-- What is proved of a class from its superclasses holds of all classes. -/
theorem supers_induct (hr : r.Built o) {P : ClassId → Prop}
    (h : ∀ k, (∀ s ∈ r.supersOf k, P s) → P k) (k : ClassId) : P k := by
  induction hk : k.index using Nat.strongRecOn generalizing k with
  | ind n ih =>
    subst hk
    exact h k fun s hs => ih s.index (hr.below_of_inherits s hs).1 s rfl

/-- The postorder holds what can be reached along superclasses. -/
theorem mem_postorderOf_iff (hr : r.Built o) {k x : ClassId} :
    x ∈ r.postorderOf k ↔ Relation.ReflTransGen r.Inherits k x := by
  induction k using hr.supers_induct with
  | h k ih =>
    rw [hr.postorderOf_eq, List.mem_eraseDups, List.mem_append, List.mem_flatMap,
      List.mem_singleton, Relation.ReflTransGen.cases_head_iff]
    constructor
    · rintro (⟨s, hs, hx⟩ | rfl)
      · exact Or.inr ⟨s, hs, (ih s hs).mp hx⟩
      · exact Or.inl rfl
    · rintro (rfl | ⟨s, hs, hx⟩)
      · exact Or.inr rfl
      · exact Or.inl ⟨s, hs, (ih s hs).mpr hx⟩

theorem postorderOf_subset (hr : r.Built o) {k x : ClassId} (hx : x ∈ r.postorderOf k) :
    r.postorderOf x ⊆ r.postorderOf k := by
  intro y hy
  rw [hr.mem_postorderOf_iff] at hx hy ⊢
  exact hx.trans hy

/-- The postorders of superclasses hold classes with smaller numbers. -/
theorem not_mem_flatMap_postorderOf (hr : r.Built o) (k : ClassId) :
    k ∉ (r.supersOf k).flatMap r.postorderOf := by
  intro hk
  obtain ⟨s, hs, hk⟩ := List.mem_flatMap.mp hk
  have hle := hr.index_le_of_reflTransGen (hr.mem_postorderOf_iff.mp hk)
  have hlt := (hr.below_of_inherits s hs).1
  omega

end Built

/-! ### Where visits end -/

/-- What has been visited with a number less than `m` is done with, and so is what it
inherits from. -/
structure DoneBelow (r : Registry) (m : Nat) (visited done : List ClassId) : Prop where
  nodup : done.Nodup
  subset : done ⊆ visited
  below : ∀ x ∈ visited, x.index < m → x ∈ done
  closed : ∀ x ∈ done, r.postorderOf x ⊆ done

/-- When the visit of a class begins, nothing more is done. -/
theorem DoneBelow.begin {m : Nat} {done : List ClassId} (h : r.DoneBelow m visited done)
    (hid : id.index < m) : r.DoneBelow id.index (visited ++ [id]) done where
  nodup := h.nodup
  subset := List.Subset.trans h.subset (List.subset_append_left _ _)
  below x hx hlt := by
    rw [List.mem_append, List.mem_singleton] at hx
    rcases hx with hx | rfl
    · exact h.below x hx (Nat.lt_trans hlt hid)
    · exact absurd hlt (Nat.lt_irrefl _)
  closed := h.closed

/-- When it ends, the class is done with. -/
theorem DoneBelow.finish (hr : r.Built o) {m : Nat} {done : List ClassId} {us : List Visit}
    (h : r.DoneBelow m visited done) (hperm : (ended us).Perm (begun us))
    (hdone : done ++ ended us ++ [id] = (done ++ r.postorderOf id).eraseDups) :
    r.DoneBelow m (visited ++ id :: begun us) (done ++ ended us ++ [id]) where
  nodup := hdone ▸ nodup_eraseDups _
  subset x hx := by
    rw [List.mem_append, List.mem_append, hperm.mem_iff, List.mem_singleton] at hx
    rw [List.mem_append, List.mem_cons]
    rcases hx with (hx | hx) | hx
    · exact Or.inl (h.subset hx)
    · exact Or.inr (Or.inr hx)
    · exact Or.inr (Or.inl hx)
  below x hx hlt := by
    rw [List.mem_append, List.mem_cons] at hx
    rw [List.mem_append, List.mem_append, hperm.mem_iff, List.mem_singleton]
    rcases hx with hx | hx | hx
    · exact Or.inl (Or.inl (h.below x hx hlt))
    · exact Or.inr hx
    · exact Or.inl (Or.inr hx)
  closed x hx y hy := by
    rw [hdone, List.mem_eraseDups, List.mem_append] at hx ⊢
    rcases hx with hx | hx
    · exact Or.inl (h.closed x hx hy)
    · exact Or.inr (hr.postorderOf_subset hx hy)

/-- What is done at the end of a traversal: what was done before it, and then the
postorders of what is pending. -/
theorem Traverses.done_eq (h : r.Traverses pending visited vs) (hr : r.Built o) {m : Nat}
    {done : List ClassId} (hpending : ∀ p ∈ pending, p.index < m)
    (hdone : r.DoneBelow m visited done) :
    done ++ ended vs = (done ++ pending.flatMap r.postorderOf).eraseDups := by
  induction h generalizing m done with
  | nil =>
    rw [ended, List.flatMap_nil, List.append_nil, eraseDups_of_nodup hdone.nodup]
  | @seen next _ _ _ hnext _ ih =>
    rw [List.forall_mem_cons] at hpending
    -- with the class its postorder is done with
    have hsubset := hdone.closed next (hdone.below next hnext hpending.1)
    rw [ih hpending.2 hdone, List.flatMap_cons, ← List.append_assoc,
      ← eraseDups_eraseDups_append (done ++ r.postorderOf next),
      eraseDups_append_of_subset hsubset, eraseDups_eraseDups_append]
  | @fresh next pending visited us vs hnext hsupers _ ih ih' =>
    rw [List.forall_mem_cons] at hpending
    have hinner := ih (fun s hs => (hr.below_of_inherits s hs).1) (hdone.begin hpending.1)
    have hnew : next ∉ done ++ (r.supersOf next).flatMap r.postorderOf := by
      rw [List.mem_append, not_or]
      exact ⟨fun hmem => hnext (hdone.subset hmem), hr.not_mem_flatMap_postorderOf next⟩
    have hvisit : done ++ ended us ++ [next] = (done ++ r.postorderOf next).eraseDups := by
      rw [hr.postorderOf_eq, eraseDups_append_eraseDups, ← List.append_assoc, eraseDups_concat,
        if_neg hnew, hinner]
    have hrest := ih' hpending.2 (hdone.finish hr hsupers.perm hvisit)
    rw [ended_visit, List.flatMap_cons, ← List.append_assoc done (r.postorderOf next),
      ← eraseDups_eraseDups_append, ← hvisit, ← hrest]
    simp

/-- **Visits end in postorder.** -/
theorem Traverses.ended_eq (h : r.Traverses [id] [] vs) (hr : r.Built o) :
    ended vs = r.postorderOf id := by
  have hnone : r.DoneBelow (id.index + 1) [] [] :=
    ⟨List.nodup_nil, List.Subset.refl _, List.forall_mem_nil _, List.forall_mem_nil _⟩
  have hended := h.done_eq hr (List.forall_mem_singleton.mpr (Nat.lt_succ_self _)) hnone
  rw [List.nil_append, List.nil_append, List.flatMap_singleton] at hended
  rw [hended, hr.postorderOf_eq, eraseDups_of_nodup (nodup_eraseDups _)]

/-! ### Ancestors come first -/

/-- In the list a class comes after all that it inherits from. -/
def AncestorsFirst (r : Registry) (l : List ClassId) : Prop :=
  ∀ before k after, l = before ++ k :: after →
    ∀ j, Relation.TransGen r.Inherits k j → j ∈ before

namespace AncestorsFirst

theorem append {l l' : List ClassId} (h : r.AncestorsFirst l) (h' : r.AncestorsFirst l') :
    r.AncestorsFirst (l ++ l') := by
  intro before k after hl j hj
  rcases List.append_eq_append_iff.mp hl with ⟨rest, rfl, hrest⟩ | ⟨rest, hrest, hl'⟩
  · exact List.mem_append_right _ (h' _ k after hrest j hj)
  · cases rest with
    | nil =>
      rw [List.append_nil] at hrest
      subst hrest
      exact absurd (h' [] k after hl'.symm j hj) List.not_mem_nil
    | cons x rest =>
      obtain ⟨rfl, -⟩ := List.cons.inj hl'
      exact h before k rest hrest j hj

theorem concat {l : List ClassId} (h : r.AncestorsFirst l) {k : ClassId}
    (hk : ∀ j, Relation.TransGen r.Inherits k j → j ∈ l) : r.AncestorsFirst (l ++ [k]) := by
  intro before x after hl j hj
  rcases List.eq_nil_or_concat after with rfl | ⟨after, y, rfl⟩
  · obtain ⟨rfl, hx⟩ := List.append_inj' hl rfl
    cases hx
    exact hk j hj
  · rw [List.concat_eq_append, ← List.cons_append, ← List.append_assoc] at hl
    obtain ⟨hl, -⟩ := List.append_inj' hl rfl
    exact h before x after hl j hj

theorem flatMap {ks : List ClassId} {f : ClassId → List ClassId}
    (h : ∀ k ∈ ks, r.AncestorsFirst (f k)) : r.AncestorsFirst (ks.flatMap f) := by
  induction ks with
  | nil =>
    intro before k after hnil
    simp at hnil
  | cons k ks ih =>
    rw [List.forall_mem_cons] at h
    rw [List.flatMap_cons]
    exact h.1.append (ih h.2)

/-- Leaving out what has come before leaves all that has come before. -/
theorem eraseDups {l : List ClassId} (h : r.AncestorsFirst l) : r.AncestorsFirst l.eraseDups := by
  induction l using List.reverseRecOn with
  | nil => exact h
  | append_singleton l k ih =>
    have hl : r.AncestorsFirst l := fun before x after heq =>
      h before x (after ++ [k]) (by rw [heq, List.append_assoc, List.cons_append])
    rw [eraseDups_concat]
    split
    · exact ih hl
    · exact (ih hl).concat fun j hj => List.mem_eraseDups.mpr (h l k [] rfl j hj)

end AncestorsFirst

/-- In a postorder, ancestors come first. -/
theorem Built.ancestorsFirst_postorderOf (hr : r.Built o) (k : ClassId) :
    r.AncestorsFirst (r.postorderOf k) := by
  induction k using hr.supers_induct with
  | h k ih =>
    rw [hr.postorderOf_eq]
    refine ((AncestorsFirst.flatMap ih).concat fun j hj => ?_).eraseDups
    obtain ⟨s, hs, hj⟩ := Relation.TransGen.head'_iff.mp hj
    exact List.mem_flatMap.mpr ⟨s, hs, hr.mem_postorderOf_iff.mpr hj⟩

end Registry

end ObjectDispatch
