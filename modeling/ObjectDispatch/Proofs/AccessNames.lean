import ObjectDispatch.Proofs.Succession

/-!
# Access names

An access name is taken when an object comes to life under it, and given back when
the object ceases to live.  An object comes to life only under a free name, so the
name of a live object means that object for as long as it lives, and a name that
means an object is the name of a live one.

## Main definitions

* `ObjectTable.Named` — the names of a table are those of its live objects.

## Main results

* `World.named_replay` — admitted events keep the names right.
* `World.exists_get?_replay` — an object that is not removed lives on, under its name
  and in its class.
-/

namespace ObjectDispatch

/-! ### Tables of objects -/

namespace ObjectTable

/-- The name of a live object means it, and a name that means an object is the name
of a live one. -/
structure Named (t : ObjectTable) : Prop where
  find?_name : ∀ id ob, t.get? id = some ob → t.find? ob.name = some id
  exists_get? : ∀ n id, t.find? n = some id → ∃ ob, t.get? id = some ob ∧ ob.name = n

variable {t : ObjectTable} {id : ObjectId} {ob : Object}

theorem find?_create (t : ObjectTable) (name : String) (cls : ClassId) (n : String) :
    (t.create name cls).find? n = if n = name then some t.nextId else t.find? n :=
  t.names.find?_insert name n t.nextId

/-- With a live object its name is given back. -/
theorem find?_remove (hob : t.get? id = some ob) (n : String) :
    (t.remove id).find? n = if n = ob.name then none else t.find? n := by
  unfold remove find?
  rw [hob]
  exact t.names.find?_erase ob.name n

theorem remove_eq_self (h : t.get? id = none) : t.remove id = t := by
  unfold remove
  rw [h]

/-- A new object takes a name that was free. -/
theorem Named.create (ht : t.Named) {name : String} (hfree : t.find? name = none)
    (hnew : t.get? t.nextId = none) (cls : ClassId) : (t.create name cls).Named := by
  refine ⟨fun id ob hob => ?_, fun n id hn => ?_⟩
  · rw [get?_create, Option.or_eq_some_iff] at hob
    rw [find?_create]
    rcases hob with hob | ⟨-, hob⟩
    · have hname := ht.find?_name id ob hob
      rw [if_neg, hname]
      intro htaken
      rw [htaken, hfree] at hname
      cases hname
    · split at hob
      · next hid =>
        cases hob
        rw [if_pos rfl, hid]
      · cases hob
  · rw [find?_create] at hn
    rw [get?_create]
    split at hn
    · next hname =>
      cases hn
      exact ⟨_, by rw [hnew, if_pos rfl, Option.none_or], hname.symm⟩
    · obtain ⟨ob, hob, hname⟩ := ht.exists_get? n id hn
      exact ⟨ob, by rw [hob, Option.some_or], hname⟩

theorem Named.remove (ht : t.Named) (k : ObjectId) : (t.remove k).Named := by
  cases hk : t.get? k with
  | none =>
    rw [remove_eq_self hk]
    exact ht
  | some old =>
    have hmeant := ht.find?_name k old hk
    refine ⟨fun id ob hob => ?_, fun n id hn => ?_⟩
    · rw [get?_remove] at hob
      split at hob
      · cases hob
      · next hid =>
        -- another live object has another name
        have hname := ht.find?_name id ob hob
        rw [find?_remove hk, if_neg, hname]
        intro hsame
        rw [hsame, hmeant] at hname
        exact hid (Option.some.inj hname).symm
    · rw [find?_remove hk] at hn
      split at hn
      · cases hn
      · next hname =>
        obtain ⟨ob, hob, rfl⟩ := ht.exists_get? n id hn
        refine ⟨ob, ?_, rfl⟩
        rw [get?_remove, if_neg, hob]
        rintro rfl
        cases hk.symm.trans hob
        exact hname rfl

theorem Named.update (ht : t.Named) (k : ObjectId) {f : Object → Object}
    (hf : ∀ ob, (f ob).name = ob.name) : (t.update k f).Named := by
  refine ⟨fun id ob hob => ?_, fun n id hn => ?_⟩
  · rw [get?_update] at hob
    split at hob
    · obtain ⟨old, hold, rfl⟩ := Option.map_eq_some_iff.mp hob
      show t.find? (f old).name = some id
      rw [hf]
      exact ht.find?_name id old hold
    · exact ht.find?_name id ob hob
  · obtain ⟨ob, hob, rfl⟩ := ht.exists_get? n id hn
    rw [get?_update, hob]
    split
    · exact ⟨_, rfl, hf ob⟩
    · exact ⟨ob, rfl, rfl⟩

end ObjectTable

namespace World

variable {w : World} {o : ObjectId} {ob : Object} {e : Event} {es : List Event}

/-! ### The names of a world -/

theorem named_after (hw : w.Sound) (hnamed : w.objects.Named) (he : w.Admits e) :
    (w.after e).objects.Named := by
  cases e with
  | objectCreated name cls => exact hnamed.create he.1 hw.get?_nextId cls
  | objectRemoved k => exact hnamed.remove k
  | assigned k x v => exact hnamed.update k (f := (·.set x v)) fun _ => rfl
  | cleared k x => exact hnamed.update k (f := (·.unset x)) fun _ => rfl
  | constructorMarked k c => exact hnamed.update k (f := (·.markConstructed c)) fun _ => rfl
  | destructorMarked k c => exact hnamed.update k (f := (·.markDestructed c)) fun _ => rfl
  | destructorsForgotten k => exact hnamed.update k (f := (·.forgetDestructed)) fun _ => rfl
  | _ => exact hnamed

/-- Admitted events keep the names right. -/
theorem named_replay (hw : w.Sound) (hnamed : w.objects.Named) (hes : w.AdmitsAll es) :
    (w.replay es).objects.Named :=
  (replay_induct (I := fun v => v.Sound ∧ v.objects.Named)
    (fun _ _ h he => ⟨h.1.after he, named_after h.1 h.2 he⟩) ⟨hw, hnamed⟩ hes).2

end World

theorem Session.Reachable.named {opts : EngineOptions} {w : World}
    (hw : Session.Reachable opts w) : w.objects.Named :=
  (hw.induct (I := fun v => v.Sound ∧ v.objects.Named)
    ⟨World.sound_initial opts, nofun, nofun⟩
    fun _ _ h he => ⟨h.1.after he, World.named_after h.1 h.2 he⟩).2

/-! ### Objects that are not removed -/

namespace World

variable {w : World} {o : ObjectId} {ob : Object} {e : Event} {es : List Event}

theorem exists_get?_after (hob : w.objects.get? o = some ob) (he : e ≠ .objectRemoved o) :
    ∃ ob', (w.after e).objects.get? o = some ob' ∧ ob'.name = ob.name ∧ ob'.cls = ob.cls :=
  ⟨_, get?_after_of_get? hob he, e.change_name o ob, e.change_cls o ob⟩

/-- An object that is not removed lives on, under its name and in its class. -/
theorem exists_get?_replay (hob : w.objects.get? o = some ob) (hes : .objectRemoved o ∉ es) :
    ∃ ob', (w.replay es).objects.get? o = some ob' ∧ ob'.name = ob.name ∧ ob'.cls = ob.cls := by
  induction es generalizing w ob with
  | nil => exact ⟨ob, hob, rfl, rfl⟩
  | cons e es ih =>
    rw [List.mem_cons, not_or] at hes
    obtain ⟨ob₁, hob₁, hname₁, hcls₁⟩ := exists_get?_after hob (Ne.symm hes.1)
    obtain ⟨ob', hob', hname, hcls⟩ := ih hob₁ hes.2
    exact ⟨ob', hob', hname.trans hname₁, hcls.trans hcls₁⟩

end World

end ObjectDispatch
