import ObjectDispatch.World

/-!
# What an event does to an object

An event changes one object at most, or creates one, or removes one.  So an object that
is alive after an event is what the event has made of an object that was alive before
it, or it is the one that the event has created.

## Main definitions

* `Event.change` — what an event makes of an object.
* `World.born?` — what an event brings to life.

## Main results

* `World.get?_after_of_ne` — **what is alive after an event.**
* `World.cases_of_get?_after` — where a live object comes from.
-/

namespace ObjectDispatch

namespace ObjectTable

variable {t : ObjectTable} {o : ObjectId} {ob : Object}

theorem id_of_get? (hob : t.get? o = some ob) : ob.id = o := by
  simpa using List.find?_some hob

/-- If a change keeps the number of an object, nothing else happens to it. -/
theorem get?_update_of_id (k : ObjectId) {f : Object → Object} (hf : ∀ ob, (f ob).id = ob.id) :
    (t.update k f).get? o = (t.get? o).map fun ob => if k = o then f ob else ob := by
  rw [get?_update]
  cases hob : t.get? o with
  | none => simp
  | some ob =>
    have hid : { f ob with id := o } = f ob := by rw [← id_of_get? hob, ← hf ob]
    by_cases hk : o = k
    · subst hk
      simp [hid]
    · rw [if_neg hk, Option.map_some, if_neg (Ne.symm hk)]

end ObjectTable

namespace Event

variable {e : Event} {o : ObjectId}

/-- What the event makes of the object `o`, unless it removes it. -/
def change (e : Event) (o : ObjectId) (ob : Object) : Object :=
  match e with
  | .assigned k x v => if k = o then ob.set x v else ob
  | .cleared k x => if k = o then ob.unset x else ob
  | .constructorMarked k c => if k = o then ob.markConstructed c else ob
  | .destructorMarked k c => if k = o then ob.markDestructed c else ob
  | .destructorsForgotten k => if k = o then ob.forgetDestructed else ob
  | _ => ob

@[simp] theorem change_assigned (o : ObjectId) (x : String) (v : Value) (ob : Object) :
    (assigned o x v).change o ob = ob.set x v := if_pos rfl

@[simp] theorem change_cleared (o : ObjectId) (x : String) (ob : Object) :
    (cleared o x).change o ob = ob.unset x := if_pos rfl

@[simp] theorem change_constructorMarked (o : ObjectId) (c : ClassId) (ob : Object) :
    (constructorMarked o c).change o ob = ob.markConstructed c := if_pos rfl

@[simp] theorem change_destructorMarked (o : ObjectId) (c : ClassId) (ob : Object) :
    (destructorMarked o c).change o ob = ob.markDestructed c := if_pos rfl

@[simp] theorem change_destructorsForgotten (o : ObjectId) (ob : Object) :
    (destructorsForgotten o).change o ob = ob.forgetDestructed := if_pos rfl

/-! No event gives an object another name or another class. -/

@[simp] theorem change_name (e : Event) (o : ObjectId) (ob : Object) :
    (e.change o ob).name = ob.name := by
  unfold change
  split <;> first | rfl | split <;> rfl

@[simp] theorem change_cls (e : Event) (o : ObjectId) (ob : Object) :
    (e.change o ob).cls = ob.cls := by
  unfold change
  split <;> first | rfl | split <;> rfl

/-! The marks of an object change where one is set, and where they are forgotten. -/

theorem constructed_change (he : ∀ c, e ≠ .constructorMarked o c) (ob : Object) :
    (e.change o ob).constructed = ob.constructed := by
  cases e with
  | constructorMarked k c =>
    have hk : k ≠ o := fun h => he c (h ▸ rfl)
    exact congrArg Object.constructed (if_neg hk)
  | assigned | cleared | destructorMarked | destructorsForgotten =>
    simp only [change]
    split <;> rfl
  | _ => rfl

theorem destructed_change (hmark : ∀ c, e ≠ .destructorMarked o c)
    (hforget : e ≠ .destructorsForgotten o) (ob : Object) :
    (e.change o ob).destructed = ob.destructed := by
  cases e with
  | destructorMarked k c =>
    have hk : k ≠ o := fun h => hmark c (h ▸ rfl)
    exact congrArg Object.destructed (if_neg hk)
  | destructorsForgotten k =>
    have hk : k ≠ o := fun h => hforget (h ▸ rfl)
    exact congrArg Object.destructed (if_neg hk)
  | assigned | cleared | constructorMarked =>
    simp only [change]
    split <;> rfl
  | _ => rfl

/-- The constructors that count as begun after an event counted before it, or one of them
is marked. -/
theorem isConstructed_change (e : Event) (o : ObjectId) (ob : Object) (c : ClassId) :
    (e.change o ob).isConstructed c = true ↔
      ob.isConstructed c = true ∨ e = .constructorMarked o c := by
  by_cases hmark : ∃ k, e = .constructorMarked o k
  · obtain ⟨k, rfl⟩ := hmark
    rw [change_constructorMarked, ob.isConstructed_markConstructed, constructorMarked.injEq,
      eq_self, true_and, eq_comm (a := k)]
  · have hne (k : ClassId) : e ≠ .constructorMarked o k := fun h => hmark ⟨k, h⟩
    rw [Object.isConstructed, constructed_change hne, or_iff_left (hne c)]
    rfl

theorem mem_constructed_change (e : Event) (o : ObjectId) (ob : Object) (c : ClassId) :
    c ∈ (e.change o ob).constructed ↔ c ∈ ob.constructed ∨ e = .constructorMarked o c := by
  simpa only [Object.isConstructed, List.contains_iff_mem] using e.isConstructed_change o ob c

/-- The destructors that count as begun after an event counted before it, or one of them
is marked, unless they are forgotten. -/
theorem isDestructed_change (hforget : e ≠ .destructorsForgotten o) (ob : Object) (c : ClassId) :
    (e.change o ob).isDestructed c = true ↔
      ob.isDestructed c = true ∨ e = .destructorMarked o c := by
  by_cases hmark : ∃ k, e = .destructorMarked o k
  · obtain ⟨k, rfl⟩ := hmark
    rw [change_destructorMarked, ob.isDestructed_markDestructed, destructorMarked.injEq,
      eq_self, true_and, eq_comm (a := k)]
  · have hne (k : ClassId) : e ≠ .destructorMarked o k := fun h => hmark ⟨k, h⟩
    rw [Object.isDestructed, destructed_change hne hforget, or_iff_left (hne c)]
    rfl

end Event

namespace World

variable {w : World} {e : Event} {o : ObjectId} {ob ob' : Object}

/-- The object `o`, if the event brings it to life. -/
def born? (w : World) (o : ObjectId) : Event → Option Object
  | .objectCreated name cls =>
    if w.objects.nextId = o then some { id := w.objects.nextId, name, cls } else none
  | _ => none

/-- **What is alive after an event**: what was alive before it, as the event has changed
it, and what it has brought to life. -/
theorem get?_after_of_ne (w : World) (he : e ≠ .objectRemoved o) :
    (w.after e).objects.get? o = ((w.objects.get? o).map (e.change o)).or (w.born? o e) := by
  have hsame : w.objects.get? o = ((w.objects.get? o).map fun ob => ob).or none := by
    rw [Option.map_id', Option.or_none]
  have hupdate (k : ObjectId) {f : Object → Object} (hf : ∀ ob, (f ob).id = ob.id) :
      (w.objects.update k f).get? o =
        ((w.objects.get? o).map fun ob => if k = o then f ob else ob).or none := by
    rw [ObjectTable.get?_update_of_id k hf, Option.or_none]
  cases e with
  | objectCreated name cls =>
    refine (w.objects.get?_create name cls o).trans ?_
    rw [show (Event.objectCreated name cls).change o = fun ob => ob from rfl, Option.map_id']
    rfl
  | objectRemoved k =>
    have hne : o ≠ k := fun h => he (congrArg _ h.symm)
    exact (w.objects.get?_remove k o).trans ((if_neg hne).trans hsame)
  | assigned k x v => exact hupdate k (f := (·.set x v)) fun _ => rfl
  | cleared k x => exact hupdate k (f := (·.unset x)) fun _ => rfl
  | constructorMarked k c => exact hupdate k (f := (·.markConstructed c)) fun _ => rfl
  | destructorMarked k c => exact hupdate k (f := (·.markDestructed c)) fun _ => rfl
  | destructorsForgotten k => exact hupdate k (f := (·.forgetDestructed)) fun _ => rfl
  | _ => exact hsame

theorem get?_after_objectRemoved (w : World) (o : ObjectId) :
    (w.after (.objectRemoved o)).objects.get? o = none :=
  (w.objects.get?_remove o o).trans (if_pos rfl)

/-- An object that is not removed lives on as the event has changed it. -/
theorem get?_after_of_get? (hob : w.objects.get? o = some ob) (he : e ≠ .objectRemoved o) :
    (w.after e).objects.get? o = some (e.change o ob) := by
  rw [get?_after_of_ne w he, hob, Option.map_some, Option.some_or]

/-- The object lives on, with the value that is assigned. -/
theorem get?_after_assigned (hob : w.objects.get? o = some ob) (y : String) (x : Value) :
    (w.after (.assigned o y x)).objects.get? o = some (ob.set y x) := by
  rw [get?_after_of_get? (e := .assigned o y x) hob nofun, Event.change_assigned]

/-- An object that is created lives, as it was made if its number was not in use. -/
theorem get?_after_objectCreated (w : World) (name : String) (cls : ClassId) :
    (w.after (.objectCreated name cls)).objects.get? w.objects.nextId =
      (w.objects.get? w.objects.nextId).or (some { id := w.objects.nextId, name, cls }) :=
  (w.objects.get?_create name cls _).trans (by rw [if_pos rfl])

theorem isSome_get?_after_objectCreated (w : World) (name : String) (cls : ClassId) :
    ((w.after (.objectCreated name cls)).objects.get? w.objects.nextId).isSome := by
  rw [get?_after_objectCreated, Option.isSome_or, Option.isSome_some, Bool.or_true]

/-- **Where an object that is alive after an event comes from.** -/
theorem cases_of_get?_after (hob' : (w.after e).objects.get? o = some ob') :
    (∃ ob, w.objects.get? o = some ob ∧ ob' = e.change o ob) ∨
      w.objects.get? o = none ∧ ∃ name cls, e = .objectCreated name cls ∧
        o = w.objects.nextId ∧ ob' = { id := w.objects.nextId, name, cls } := by
  by_cases he : e = .objectRemoved o
  · rw [he, get?_after_objectRemoved] at hob'
    cases hob'
  rw [get?_after_of_ne w he, Option.or_eq_some_iff] at hob'
  rcases hob' with hlived | ⟨hdead, hborn⟩
  · obtain ⟨ob, hob, rfl⟩ := Option.map_eq_some_iff.mp hlived
    exact Or.inl ⟨ob, hob, rfl⟩
  · refine Or.inr ⟨Option.map_eq_none_iff.mp hdead, ?_⟩
    unfold born? at hborn
    split at hborn
    · rw [Option.ite_none_right_eq_some, Option.some.injEq] at hborn
      exact ⟨_, _, rfl, hborn.1.symm, hborn.2.symm⟩
    · cases hborn

end World

end ObjectDispatch
