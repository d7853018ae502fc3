import Mathlib.Data.List.Nodup
import ObjectDispatch.Proofs.AccessNames
import ObjectDispatch.Proofs.History

/-!
# Live objects

Objects are numbered in the order of their creation.  The live ones keep that order, so
no two of them have the same number, and a number that has been given out once is not
given out again.  Together with the access names this makes the objects of a world a
table with two keys, the number and the name.

## Main definitions

* `ObjectTable.Ordered` — the live objects are in the order of their numbers.
* `World.allocated` — the numbers that are given out while events happen.

## Main results

* `ObjectTable.Named.nodup_names` — **no two live objects have the same name.**
* `World.numbers_of_allocated` — numbers are given out one after the other.
* `World.exists_get?_of_get?_replay` — who has an old number has had it all the time.
* `objects_of_session` — all of it, between any two moments of every session.
-/

namespace ObjectDispatch

namespace ObjectTable

variable {t : ObjectTable} {id : ObjectId} {ob : Object}

/-! ### Numbers in order -/

/-- The live objects are in the order of their numbers, which have been given out. -/
structure Ordered (t : ObjectTable) : Prop where
  increasing : (t.live.map (·.id.number)).Pairwise (· < ·)
  given : ∀ ob ∈ t.live, 0 < ob.id.number ∧ ob.id.number ≤ t.created

/-- A new object gets a number that is greater than those of the others. -/
theorem Ordered.create (ht : t.Ordered) (name : String) (cls : ClassId) :
    (t.create name cls).Ordered := by
  constructor
  · unfold ObjectTable.create
    rw [List.map_append, List.pairwise_append]
    refine ⟨ht.increasing, List.pairwise_singleton _ _, ?_⟩
    intro n hn m hm
    obtain ⟨ob, hob, rfl⟩ := List.mem_map.mp hn
    obtain rfl := List.mem_singleton.mp hm
    exact Nat.lt_succ_of_le (ht.given ob hob).2
  · intro ob hob
    rcases List.mem_append.mp hob with hob | hob
    · obtain ⟨hpos, hle⟩ := ht.given ob hob
      exact ⟨hpos, Nat.le_succ_of_le hle⟩
    · obtain rfl := List.mem_singleton.mp hob
      exact ⟨Nat.succ_pos _, Nat.le_refl _⟩

theorem Ordered.remove (ht : t.Ordered) (k : ObjectId) : (t.remove k).Ordered := by
  unfold ObjectTable.remove
  split
  · exact ht
  · refine ⟨ht.increasing.sublist (List.filter_sublist.map _), fun ob hob => ?_⟩
    exact ht.given ob (List.mem_of_mem_filter hob)

theorem Ordered.update (ht : t.Ordered) (k : ObjectId) (f : Object → Object) :
    (t.update k f).Ordered := by
  -- a change keeps the number
  have hid (ob : Object) : (if ob.id = k then { f ob with id := k } else ob).id = ob.id := by
    split
    · next h => exact h.symm
    · rfl
  constructor
  · have hsame : (t.update k f).live.map (·.id.number) = t.live.map (·.id.number) := by
      unfold ObjectTable.update
      rw [List.map_map]
      exact List.map_congr_left fun ob _ => congrArg ObjectId.number (hid ob)
    rw [hsame]
    exact ht.increasing
  · intro ob hob
    obtain ⟨old, hold, rfl⟩ := List.mem_map.mp hob
    rw [hid]
    exact ht.given old hold

/-- No two live objects have the same number. -/
theorem Ordered.nodup_ids (ht : t.Ordered) : (t.live.map (·.id)).Nodup := by
  refine List.Nodup.of_map ObjectId.number ?_
  rw [List.map_map]
  exact ht.increasing.imp Nat.ne_of_lt

/-- A live object is found under its number. -/
theorem Ordered.get?_eq_some_iff (ht : t.Ordered) :
    t.get? id = some ob ↔ ob ∈ t.live ∧ ob.id = id := by
  constructor
  · intro h
    exact ⟨List.mem_of_find?_eq_some h, by simpa using List.find?_some h⟩
  · rintro ⟨hob, rfl⟩
    have hsome : (t.get? ob.id).isSome := List.find?_isSome.mpr ⟨ob, hob, decide_eq_true rfl⟩
    obtain ⟨found, hfound⟩ := Option.isSome_iff_exists.mp hsome
    have hid : found.id = ob.id := by simpa using List.find?_some hfound
    have hmem : found ∈ t.live := List.mem_of_find?_eq_some hfound
    rw [hfound, List.inj_on_of_nodup_map ht.nodup_ids hmem hob hid]

/-- **No two live objects have the same name.** -/
theorem Named.nodup_names (hnamed : t.Named) (ht : t.Ordered) : (t.live.map (·.name)).Nodup := by
  refine ht.nodup_ids.of_map.map_on fun ob hob other hother hname => ?_
  have hmeans := hnamed.find?_name ob.id ob (ht.get?_eq_some_iff.mpr ⟨hob, rfl⟩)
  have hmeant := hnamed.find?_name other.id other (ht.get?_eq_some_iff.mpr ⟨hother, rfl⟩)
  rw [hname, hmeant, Option.some.injEq] at hmeans
  exact List.inj_on_of_nodup_map ht.nodup_ids hob hother hmeans.symm

/-- A name means the live object that has it. -/
theorem Named.find?_eq_some_iff (ht : t.Named) {n : String} :
    t.find? n = some id ↔ ∃ ob, t.get? id = some ob ∧ ob.name = n := by
  constructor
  · exact ht.exists_get? n id
  · rintro ⟨ob, hob, rfl⟩
    exact ht.find?_name id ob hob

end ObjectTable

namespace World

variable {w : World} {id : ObjectId} {ob : Object} {es : List Event}

/-- Every event keeps the live objects in order. -/
theorem ordered_after (hw : w.objects.Ordered) (e : Event) : (w.after e).objects.Ordered := by
  cases e with
  | objectCreated name cls => exact hw.create name cls
  | objectRemoved k => exact hw.remove k
  | assigned k | cleared k | constructorMarked k | destructorMarked k | destructorsForgotten k =>
    exact hw.update k _
  | _ => exact hw

/-! ### Numbers that are given out -/

/-- The number that is given out at an event. -/
def given? (w : World) : Event → Option ObjectId
  | .objectCreated _ _ => some w.objects.nextId
  | _ => none

/-- The numbers that are given out while events happen, in order. -/
def allocated : World → List Event → List ObjectId
  | _, [] => []
  | w, e :: es => (w.given? e).toList ++ (w.after e).allocated es

/-- The table counts the numbers that are given out. -/
theorem created_after (w : World) (e : Event) :
    (w.after e).objects.created = w.objects.created + (w.given? e).toList.length := by
  cases e with
  | objectRemoved k =>
    show (w.objects.remove k).created = w.objects.created
    unfold ObjectTable.remove
    split <;> rfl
  | _ => rfl

theorem created_replay (w : World) (es : List Event) :
    (w.replay es).objects.created = w.objects.created + (w.allocated es).length := by
  induction es generalizing w with
  | nil => rfl
  | cons e es ih =>
    rw [replay_cons, ih, created_after, allocated, List.length_append, Nat.add_assoc]

/-- **Numbers are given out one after the other**, so none is given out twice. -/
theorem numbers_of_allocated (w : World) (es : List Event) :
    (w.allocated es).map (·.number) =
      List.range' (w.objects.created + 1) (w.allocated es).length := by
  induction es generalizing w with
  | nil => rfl
  | cons e es ih =>
    have hgiven : (w.given? e).toList.map (·.number) =
        List.range' (w.objects.created + 1) (w.given? e).toList.length := by
      cases e <;> rfl
    rw [allocated, List.map_append, ih, hgiven, created_after, List.length_append,
      ← List.range'_append_1, Nat.add_right_comm]

/-- **Who has an old number has had it all the time**, under the same name and in the same
class. -/
theorem exists_get?_of_get?_replay (hid : id.number ≤ w.objects.created)
    (hob : (w.replay es).objects.get? id = some ob) :
    ∃ old, w.objects.get? id = some old ∧ ob.name = old.name ∧ ob.cls = old.cls := by
  have hstays : .objectRemoved id ∉ es := by
    intro hmem
    obtain ⟨before, after, rfl⟩ := List.append_of_mem hmem
    rw [replay_append, replay_cons] at hob
    -- it was removed, and what is dead stays dead
    have hgiven : id.number ≤ ((w.replay before).after (.objectRemoved id)).objects.created :=
      Nat.le_trans hid
        (Nat.le_trans (leadsTo_replay w before).created (created_le_after _ _))
    obtain ⟨old, hold, -⟩ := (leadsTo_replay _ after).objects id ob hgiven hob
    have hdead := ((w.replay before).objects.get?_remove id id).trans (if_pos rfl)
    exact Option.some_ne_none old (hold.symm.trans hdead)
  obtain ⟨old, hold, -⟩ := (leadsTo_replay w es).objects id ob hid hob
  obtain ⟨ob', hob', hname, hcls⟩ := exists_get?_replay hold hstays
  cases hob.symm.trans hob'
  exact ⟨old, hold, hname, hcls⟩

end World

theorem Session.Reachable.ordered {o : EngineOptions} {w : World}
    (hw : Session.Reachable o w) : w.objects.Ordered :=
  hw.induct (I := fun v => v.objects.Ordered) ⟨List.Pairwise.nil, nofun⟩
    fun _ e hv _ => World.ordered_after hv e

/-- **The objects of a session are in order**, at every moment and between any two
moments.  A name means an object when the object is alive and has that name, and no two
live objects share a name.  Objects are found under their numbers, which have been given
out, and their classes are registered.  Numbers are counted and given out one after the
other, and one that was given out stays with its object. -/
theorem objects_of_session {o : EngineOptions} {w : World} {es : List Event}
    (h : Session.Stretch o w es) :
    (∀ n id, w.findObject? n = some id ↔ ∃ ob, w.objects.get? id = some ob ∧ ob.name = n) ∧
    (w.objects.live.map (·.name)).Nodup ∧
    (∀ id ob, w.objects.get? id = some ob ↔ ob ∈ w.objects.live ∧ ob.id = id) ∧
    (∀ ob ∈ w.objects.live, 0 < ob.id.number ∧ ob.id.number ≤ w.objects.created ∧
      (w.registry.get? ob.cls).isSome) ∧
    (w.replay es).objects.created = w.objects.created + (w.allocated es).length ∧
    (w.allocated es).map (·.number) =
      List.range' (w.objects.created + 1) (w.allocated es).length ∧
    ∀ id ob, id.number ≤ w.objects.created → (w.replay es).objects.get? id = some ob →
      ∃ old, w.objects.get? id = some old ∧ ob.name = old.name ∧ ob.cls = old.cls := by
  have hnamed := h.reachable.named
  have hordered := h.reachable.ordered
  refine ⟨fun n id => hnamed.find?_eq_some_iff, hnamed.nodup_names hordered,
    fun id ob => hordered.get?_eq_some_iff, fun ob hob => ?_, w.created_replay es,
    w.numbers_of_allocated es, fun id ob => World.exists_get?_of_get?_replay⟩
  obtain ⟨hpos, hle⟩ := hordered.given ob hob
  exact ⟨hpos, hle, h.sound.registered ob.id ob (hordered.get?_eq_some_iff.mpr ⟨hob, rfl⟩)⟩

/-- Creates an object whose constructor creates another and whose destructor deletes it,
deletes it, fails to create one of the same name, and creates one again. -/
def grove : List Expr :=
  let text (t : String) : Expr := .const (.str t)
  [.defineClass { name := "Leaf" },
    .defineClass
      { name := "Tree"
        members := [.ctor none (.create (some (text "Leaf")) (text "leaf") []),
          .dtor (.delete (some (text "leaf")))] },
    .defineClass
      { name := "Stump"
        members := [.ctor none (.sequence
          [.create (some (text "Leaf")) (text "chip") [], .raise .script (text "felled")])] },
    .create (some (text "Tree")) (text "oak") [],
    .delete (some (text "oak")),
    .create (some (text "Stump")) (text "oak") [],
    .create (some (text "Tree")) (text "oak") []]

/-- The world in which the first constructor has created its object. -/
def groveWorld : World :=
  (World.initial {}).replay ((Session.history 0 (World.initial {}) grove).take 8)

/-- What happens from there on, until the last constructor has created its object. -/
def groveSince : List Event := ((Session.history 0 (World.initial {}) grove).drop 8).take 28

/-- The name means the first object, and later another one with a number of its own. -/
theorem objects_of_grove :
    (∃ ob, groveWorld.objects.get? ⟨1⟩ = some ob ∧ ob.name = "oak") ∧
    groveWorld.findObject? "leaf" = some ⟨2⟩ ∧
    (groveWorld.allocated groveSince).map (·.number) = [3, 4, 5, 6] ∧
    (groveWorld.replay groveSince).objects.created = 6 ∧
    (groveWorld.replay groveSince).findObject? "oak" = some ⟨5⟩ := by
  have hstretch : Session.Stretch {} groveWorld groveSince :=
    Session.stretch_of_history {} 0 grove 8 28
  obtain ⟨hmeans, -, -, -, hcreated, hnumbers, -⟩ := objects_of_session hstretch
  have hlength : (groveWorld.allocated groveSince).length = 4 := by decide +kernel
  have hbefore : groveWorld.objects.created = 2 := by decide +kernel
  rw [hlength, hbefore] at hcreated hnumbers
  exact ⟨(hmeans "oak" ⟨1⟩).mp (by decide +kernel), by decide +kernel, hnumbers, hcreated,
    by decide +kernel⟩

end ObjectDispatch
