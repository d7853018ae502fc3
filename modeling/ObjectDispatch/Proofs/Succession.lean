import ObjectDispatch.Proofs.Heritage

/-!
# What time keeps

Worlds change, but not everything about them: a registered class stays as it is,
a live object keeps its class and the classes that have constructed it, and an
object that has ceased to live does not come back, since no number is given out
twice.  So what code has learned about a class or an object when it began still
holds when other code has run in between, as long as the object lives.

## Main definitions

* `World.LeadsTo` — one world comes after another.
* `World.Sound` — what every reachable world has.
* `World.Each` — a condition on every event of a sequence.

## Main results

* `World.leadsTo_replay` — what any events keep.
* `World.Sound.replay` — admitted events keep a world sound.
-/

namespace ObjectDispatch

namespace World

/-- `w'` comes after `w`: classes stay, and so do objects as long as they live. -/
structure LeadsTo (w w' : World) : Prop where
  registry : w.registry.GrowsTo w'.registry
  created : w.objects.created ≤ w'.objects.created
  objects : ∀ id ob', id.number ≤ w.objects.created → w'.objects.get? id = some ob' →
    ∃ ob, w.objects.get? id = some ob ∧ ob'.cls = ob.cls ∧ ob.constructed ⊆ ob'.constructed

variable {w w' w'' : World}

theorem LeadsTo.refl (w : World) : w.LeadsTo w :=
  ⟨.refl _, Nat.le_refl _, fun _ ob _ hob => ⟨ob, hob, rfl, List.Subset.refl _⟩⟩

theorem LeadsTo.trans (h : w.LeadsTo w') (h' : w'.LeadsTo w'') : w.LeadsTo w'' := by
  refine ⟨h.registry.trans h'.registry, Nat.le_trans h.created h'.created, ?_⟩
  intro id ob'' hid hob''
  obtain ⟨ob', hob', hcls', hmarks'⟩ := h'.objects id ob'' (Nat.le_trans hid h.created) hob''
  obtain ⟨ob, hob, hcls, hmarks⟩ := h.objects id ob' hid hob'
  exact ⟨ob, hob, hcls'.trans hcls, List.Subset.trans hmarks hmarks'⟩

/-- As long as an object lives, its class is what it was. -/
theorem LeadsTo.classes (h : w.LeadsTo w') {o : ObjectId} {c : Class}
    (ho : o.number ≤ w.objects.created)
    (hc : ∀ ob, w.objects.get? o = some ob → w.registry.get? ob.cls = some c) :
    ∀ ob, w'.objects.get? o = some ob → w'.registry.get? ob.cls = some c := by
  intro ob' hob'
  obtain ⟨ob, hob, hcls, -⟩ := h.objects o ob' ho hob'
  rw [hcls]
  exact h.registry.get? (hc ob hob)

theorem classes_of_get? {o : ObjectId} {ob : Object} {c : Class}
    (hob : w.objects.get? o = some ob) (hc : w.registry.get? ob.cls = some c) :
    ∀ ob', w.objects.get? o = some ob' → w.registry.get? ob'.cls = some c := by
  intro ob' hob'
  cases hob.symm.trans hob'
  exact hc

/-- An object that is alive after an event was alive before it, in the same class and
with the same marks but for one that the event sets, or it is the one that the event
has brought to life. -/
theorem object_after {e : Event} {id : ObjectId} {ob' : Object}
    (hob' : (w.after e).objects.get? id = some ob') :
    (∃ ob, w.objects.get? id = some ob ∧ ob'.cls = ob.cls ∧ ob.constructed ⊆ ob'.constructed ∧
      ∀ k ∈ ob'.constructed, k ∈ ob.constructed ∨ e = .constructorMarked id k) ∨
    ∃ name cls, e = .objectCreated name cls ∧ id = w.objects.nextId ∧
      ob' = { id := w.objects.nextId, name, cls } := by
  rcases cases_of_get?_after hob' with ⟨ob, hob, rfl⟩ | ⟨-, hnew⟩
  · have hmarks := e.mem_constructed_change id ob
    exact Or.inl ⟨ob, hob, e.change_cls id ob, fun k hk => (hmarks k).mpr (Or.inl hk),
      fun k => (hmarks k).mp⟩
  · exact Or.inr hnew

theorem created_le_after (w : World) (e : Event) :
    w.objects.created ≤ (w.after e).objects.created := by
  cases e with
  | objectCreated => exact Nat.le_succ _
  | objectRemoved id =>
    show _ ≤ (w.objects.remove id).created
    unfold ObjectTable.remove
    split <;> exact Nat.le_refl _
  | _ => exact Nat.le_refl _

theorem leadsTo_after (w : World) (e : Event) : w.LeadsTo (w.after e) := by
  refine ⟨growsTo_after w e, created_le_after w e, ?_⟩
  intro id ob' hid hob'
  rcases object_after hob' with ⟨ob, hob, hcls, hmarks, -⟩ | ⟨name, cls, rfl, rfl, rfl⟩
  · exact ⟨ob, hob, hcls, hmarks⟩
  · -- a new object has a number that was not given out before
    exact absurd hid (Nat.not_succ_le_self _)

/-- What any events keep. -/
theorem leadsTo_replay (w : World) (es : List Event) : w.LeadsTo (w.replay es) := by
  induction es generalizing w with
  | nil => exact .refl w
  | cons e es ih => exact (leadsTo_after w e).trans (ih _)

/-! ### Every event -/

/-- Each of the events is one that `A` allows in the world that the events before it
have made. -/
def Each (A : World → Event → Prop) : World → List Event → Prop
  | _, [] => True
  | w, e :: es => A w e ∧ (w.after e).Each A es

variable {A : World → Event → Prop}

theorem each_append {es fs : List Event} :
    w.Each A (es ++ fs) ↔ w.Each A es ∧ (w.replay es).Each A fs := by
  induction es generalizing w with
  | nil => exact ⟨fun h => ⟨trivial, h⟩, fun h => h.2⟩
  | cons e es ih =>
    show A w e ∧ (w.after e).Each A (es ++ fs) ↔ (A w e ∧ (w.after e).Each A es) ∧ _
    rw [ih, and_assoc]
    rfl

theorem each_of_forall {es : List Event} (h : ∀ e ∈ es, ∀ w, A w e) : w.Each A es := by
  induction es generalizing w with
  | nil => trivial
  | cons e es ih =>
    rw [List.forall_mem_cons] at h
    exact ⟨h.1 w, ih h.2⟩

/-- A weaker condition holds of every event as well. -/
theorem Each.imp {B : World → Event → Prop} {es : List Event} (h : w.Each A es)
    (himp : ∀ v e, A v e → B v e) : w.Each B es := by
  induction es generalizing w with
  | nil => trivial
  | cons e es ih => exact ⟨himp w e h.1, ih h.2⟩

/-! ### What every reachable world has -/

/-- The registry is what definitions made, the classes of the objects are in it,
and the numbers of the objects have been given out. -/
structure Sound (w : World) : Prop where
  built : w.registry.Built w.options
  registered : Session.ClassesRegistered w
  allocated : ∀ id ob, w.objects.get? id = some ob → id.number ≤ w.objects.created

theorem sound_initial (o : EngineOptions) : (World.initial o).Sound := by
  have hdead (id : ObjectId) : (World.initial o).objects.get? id = none := rfl
  refine ⟨.empty, fun id ob hob => ?_, fun id ob hob => ?_⟩
  all_goals
    rw [hdead] at hob
    cases hob

/-- The number of the next object has not been given out. -/
theorem Sound.get?_nextId (hw : w.Sound) : w.objects.get? w.objects.nextId = none := by
  cases hob : w.objects.get? w.objects.nextId with
  | none => rfl
  | some ob => exact absurd (hw.allocated _ ob hob) (Nat.not_succ_le_self _)

theorem Sound.after (hw : w.Sound) {e : Event} (he : w.Admits e) : (w.after e).Sound := by
  refine ⟨Session.built_after hw.built he, Session.classesRegistered_after hw.registered he, ?_⟩
  intro id ob' hob'
  rcases object_after hob' with ⟨ob, hob, -⟩ | ⟨name, cls, rfl, rfl, -⟩
  · exact Nat.le_trans (hw.allocated id ob hob) (created_le_after w e)
  · exact Nat.le_refl _

/-- Admitted events keep a world sound. -/
theorem Sound.replay (hw : w.Sound) {es : List Event} (hes : w.AdmitsAll es) :
    (w.replay es).Sound :=
  replay_induct (I := Sound) (fun _ _ h he => h.after he) hw hes

end World

theorem Session.Reachable.sound {o : EngineOptions} {w : World} (hw : Session.Reachable o w) :
    w.Sound :=
  hw.induct (I := World.Sound) (World.sound_initial o) fun _ _ h he => h.after he

end ObjectDispatch
