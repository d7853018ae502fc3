import ObjectDispatch.Proofs.Creation
import ObjectDispatch.Proofs.LiveObjects
import ObjectDispatch.Proofs.Privacy

/-!
# What components are bound to

A component is bound to an object by its access name: the name is stored in the variable
of the component, and looked up when the component is asked for.  So what a component is
bound to changes with the names, though nothing is stored.

As long as the target lives, the name means it, and the component is bound to it.  When
the target is deleted the name is free, and the component is bound to nothing.  It does
not stay so if another object is created under the name: the component is then bound to
that one.

## Main results

* `World.value?_replay` — a value stays as it is while it is not written.
* `World.component_eq_of_growsTo` — so does what a component is, while its object lives.
* `World.findObject?_of_replay` — a name that no object is given means nothing new.
* `component_of_binding` — **what a component is bound to**, ever after it was bound.
-/

namespace ObjectDispatch

variable {opts : EngineOptions} {w w' : World} {es : List Event} {o t : ObjectId}
variable {ob ob' : Object} {n : String} {k : Component}

namespace World

/-! ### What stays while an object lives -/

/-- The value of a variable stays as it is while it is not written and the object lives: an
induction on the events. -/
theorem value?_replay (ho : o.number ≤ w.objects.created) (hob : w.objects.get? o = some ob)
    (hob' : (w.replay es).objects.get? o = some ob') {x : String}
    (hes : ∀ e ∈ es, e.write? ≠ some (o, x)) : ob'.value? x = ob.value? x := by
  induction es generalizing w ob with
  | nil =>
    cases hob.symm.trans hob'
    rfl
  | cons e es ih =>
    rw [List.forall_mem_cons] at hes
    have ho' := Nat.le_trans ho (leadsTo_after w e).created
    -- the number is not given out again, so the object lives after the first event
    obtain ⟨old, hold, -⟩ := (leadsTo_replay (w.after e) es).objects o ob' ho' hob'
    exact (ih ho' hold hob' hes.2).trans (value?_after hob hold hes.1)

/-- Registered classes keep their components. -/
theorem firstComponent_of_growsTo (hgrows : w.registry.GrowsTo w'.registry) {ks : List ClassId}
    (h : firstComponent w n ks = .ok k) : firstComponent w' n ks = .ok k := by
  induction ks with
  | nil => cases h
  | cons a ks ih =>
    unfold firstComponent at h ⊢
    obtain ⟨c, hc, h⟩ := bind_eq_ok_iff.mp h
    refine bind_eq_ok_iff.mpr ⟨c, classAt_eq_ok_iff.mpr (hgrows.get? (classAt_eq_ok_iff.mp hc)), ?_⟩
    split at h
    · exact h
    · exact ih h

/-- What a component is stays as it is while its object lives. -/
theorem component_eq_of_growsTo (hgrows : w.registry.GrowsTo w'.registry)
    (hob : w.objects.get? o = some ob) (hob' : w'.objects.get? o = some ob')
    (hcls : ob'.cls = ob.cls) (h : w.component o n = .ok k) : w'.component o n = .ok k := by
  obtain ⟨c, hc, h⟩ := bind_eq_ok_iff.mp h
  obtain ⟨ob₀, hob₀, hreg⟩ := classOf_eq_ok_iff.mp hc
  cases hob.symm.trans hob₀
  have hc' : w'.classOf o = .ok c :=
    classOf_eq_ok_iff.mpr ⟨ob', hob', by rw [hcls]; exact hgrows.get? hreg⟩
  exact bind_eq_ok_iff.mpr ⟨c, hc', firstComponent_of_growsTo hgrows h⟩

/-! ### What names mean later -/

/-- A name that means an object after an event meant it before, unless an object was created
under it. -/
theorem findObject?_of_after {e : Event} (he : ∀ cls, e ≠ .objectCreated n cls)
    (h : (w.after e).findObject? n = some t) : w.findObject? n = some t := by
  cases e with
  | objectCreated name cls =>
    have h : (w.objects.create name cls).find? n = some t := h
    rwa [ObjectTable.find?_create, if_neg fun hname => he cls (by rw [hname])] at h
  | objectRemoved j =>
    have h : (w.objects.remove j).find? n = some t := h
    cases hold : w.objects.get? j with
    | none => rwa [ObjectTable.remove_eq_self hold] at h
    | some old =>
      rw [ObjectTable.find?_remove hold] at h
      split at h
      · cases h
      · exact h
  | _ => exact h

theorem findObject?_of_replay (hes : ∀ e ∈ es, ∀ cls, e ≠ .objectCreated n cls)
    (h : (w.replay es).findObject? n = some t) : w.findObject? n = some t := by
  induction es generalizing w with
  | nil => exact h
  | cons e es ih =>
    rw [List.forall_mem_cons] at hes
    exact findObject?_of_after hes.1 (ih hes.2 h)

end World

/-! ### Binding -/

/-- A component is bound where its object and the target are alive, and stores the name of
the target. -/
theorem bindComponent_eq_value_iff {s : State} :
    bindComponent o n t { world := w } = (.value (), s) ↔
      ∃ k ob target, w.component o n = .ok k ∧ w.objects.get? o = some ob ∧
        w.objects.get? t = some target ∧
        s = State.after { world := w } (.assigned o k.store (.str target.name)) := by
  unfold bindComponent
  constructor
  · intro h
    obtain ⟨k, hk, h⟩ := Run.eq_of_look_bind_eq_value h
    obtain ⟨target, htarget, h⟩ := Run.eq_of_look_bind_eq_value h
    obtain ⟨ob, hob, h⟩ := Run.eq_of_look_bind_eq_value h
    cases h
    exact ⟨k, ob, target, hk, World.objectAt_eq_ok_iff.mp hob,
      World.objectAt_eq_ok_iff.mp htarget, rfl⟩
  · rintro ⟨k, ob, target, hk, hob, htarget, rfl⟩
    rw [Run.look_bind_of_ok (a := k) hk,
      Run.look_bind_of_ok (a := target) (World.objectAt_eq_ok_iff.mpr htarget),
      Run.look_bind_of_ok (a := ob) (World.objectAt_eq_ok_iff.mpr hob)]
    rfl

/-- What a component is bound to is read off its variable. -/
theorem World.boundTo_eq {x : Value} (hk : w.component o n = .ok k)
    (hob : w.objects.get? o = some ob) (hx : ob.value? k.store = some x) :
    w.boundTo o n = .ok (w.findObject? x.text) := by
  unfold boundTo
  refine bind_eq_ok_iff.mpr ⟨k, hk, bind_eq_ok_iff.mpr ⟨ob, objectAt_eq_ok_iff.mpr hob, ?_⟩⟩
  rw [hx, Option.bind_some]
  rfl

/-- **What a component is bound to**, at any moment of any session after it was bound to `t`,
as long as its object lives and its variable is not written, which another binding would
do: to the live object that has the access name of `t`, if there is one.  That is `t` for as
long as it lives, and when it has ceased to, nothing until an object is created under the
name. -/
theorem component_of_binding {s : State}
    (hbind : bindComponent o n t { world := w } = (.value (), s))
    (h : Session.Stretch opts s.world es) (hk : w.component o n = .ok k)
    (hkept : ∀ e ∈ es, e.write? ≠ some (o, k.store))
    (hlive : ((s.world.replay es).objects.get? o).isSome) :
    let w' := s.world.replay es
    ∃ target, w.objects.get? t = some target ∧
      w'.boundTo o n = .ok (w'.findObject? target.name) ∧
      (∀ id, w'.findObject? target.name = some id ↔
        ∃ ob, w'.objects.get? id = some ob ∧ ob.name = target.name) ∧
      ((w'.objects.get? t).isSome → w'.boundTo o n = .ok (some t)) ∧
      (w'.objects.get? t = none → (∀ cls, .objectCreated target.name cls ∉ es) →
        w'.boundTo o n = .ok none) := by
  intro w'
  obtain ⟨k', ob, target, hk', hob, htarget, rfl⟩ := bindComponent_eq_value_iff.mp hbind
  cases hk.symm.trans hk'
  -- the world when the component has been bound
  let e : Event := .assigned o k.store (.str target.name)
  let v := w.after e
  have hv : v.objects.Named := h.reachable.named
  have hv' : w'.objects.Named := World.named_replay h.sound hv h.admitsAll
  obtain ⟨obv, hobv, -, hcls⟩ := World.exists_get?_after (e := e) hob nofun
  obtain ⟨tv, htv, hname, -⟩ := World.exists_get?_after (e := e) htarget nofun
  obtain ⟨ob', hob'⟩ := Option.isSome_iff_exists.mp hlive
  have hallocated := h.sound.allocated o obv hobv
  obtain ⟨old, hold, -, hcls'⟩ := World.exists_get?_of_get?_replay hallocated hob'
  cases hobv.symm.trans hold
  have hstored : ob'.value? k.store = some (.str target.name) :=
    (World.value?_replay hallocated hobv hob' hkept).trans (World.value?_after_assigned hobv)
  have hgrows : w.registry.GrowsTo w'.registry :=
    (World.leadsTo_after w _).registry.trans (World.leadsTo_replay v es).registry
  have hbound : w'.boundTo o n = .ok (w'.findObject? target.name) :=
    World.boundTo_eq (World.component_eq_of_growsTo hgrows hob hob' (hcls'.trans hcls) hk) hob'
      hstored
  refine ⟨target, htarget, hbound, fun id => hv'.find?_eq_some_iff, fun halive => ?_, ?_⟩
  · obtain ⟨t', ht'⟩ := Option.isSome_iff_exists.mp halive
    obtain ⟨told, htold, hname', -⟩ :=
      World.exists_get?_of_get?_replay (h.sound.allocated t tv htv) ht'
    cases htv.symm.trans htold
    rw [hbound]
    exact congrArg Except.ok (hv'.find?_eq_some_iff.mpr ⟨t', ht', hname'.trans hname⟩)
  · intro hdead hfree
    rw [hbound]
    refine congrArg Except.ok (Option.eq_none_iff_forall_ne_some.mpr fun id hid => ?_)
    -- the name can only mean the target, which is dead
    have hbefore : v.findObject? target.name = some id :=
      World.findObject?_of_replay (fun e he cls h => hfree cls (h ▸ he)) hid
    have hmeant : v.findObject? target.name = some t := hv.find?_eq_some_iff.mpr ⟨tv, htv, hname⟩
    cases hmeant.symm.trans hbefore
    obtain ⟨t', ht', -⟩ := hv'.find?_eq_some_iff.mp hid
    cases hdead.symm.trans ht'

/-- The variable that an event sets to a text, and the text. -/
def Event.text? : Event → Option (ObjectId × String × String)
  | .assigned o x (.str text) => some (o, x, text)
  | _ => none

/-- What happens after a text was assigned where the history says so. -/
theorem Session.stretch_of_assigned {loads i : Nat} {steps : List Expr} {x text : String}
    (h : (history loads (World.initial opts) steps)[i]?.bind (·.text?) = some (o, x, text))
    (j : Nat) :
    Stretch opts
      (((World.initial opts).replay ((history loads (World.initial opts) steps).take i)).after
        (.assigned o x (.str text)))
      (((history loads (World.initial opts) steps).drop (i + 1)).take j) := by
  have hlater := stretch_of_history opts loads steps (i + 1) j
  obtain ⟨e, he, htext⟩ := Option.bind_eq_some_iff.mp h
  rw [List.take_add_one, he, World.replay_append] at hlater
  unfold Event.text? at htext
  split at htext
  · cases htext
    exact hlater
  · cases htext

/-- Creates an object with a component and another object, binds the component to that one,
deletes it, and creates an object under the same name. -/
def pinboard : List Expr :=
  let text (t : String) : Expr := .const (.str t)
  [.sequence [
    .defineClass { name := "Board", kind := .widget },
    .defineClass { name := "Note" },
    .create (some (text "Board")) (text "board") [],
    .create (some (text "Note")) (text "note") []],
    .bindComponent (some (text "board")) (text "hull") (some (text "note")),
    .delete (some (text "note")),
    .create (some (text "Note")) (text "note") []]

/-- The world in which the component is bound. -/
def pinboardWorld : World :=
  (World.initial {}).replay ((Session.history 0 (World.initial {}) pinboard).take 10)

/-- What is left when the component has been bound. -/
def pinboardBound : State :=
  State.after { world := pinboardWorld } (.assigned ⟨1⟩ "::Board::hull" (.str "note"))

/-- What happens then: so many events. -/
def pinboardSince (j : Nat) : List Event :=
  ((Session.history 0 (World.initial {}) pinboard).drop 11).take j

theorem stretch_pinboardSince (j : Nat) :
    Session.Stretch {} pinboardBound.world (pinboardSince j) :=
  Session.stretch_of_assigned (i := 10) (by decide +kernel) j

/-- The binding of the component succeeds. -/
theorem exists_pinboard_component :
    ∃ k target, pinboardWorld.component ⟨1⟩ "hull" = .ok k ∧ k.store = "::Board::hull" ∧
      pinboardWorld.objects.get? ⟨2⟩ = some target ∧ target.name = "note" ∧
      bindComponent ⟨1⟩ "hull" ⟨2⟩ { world := pinboardWorld } = (.value (), pinboardBound) := by
  have hcomponent : (pinboardWorld.component ⟨1⟩ "hull").toOption.map (·.store) =
      some "::Board::hull" := by decide +kernel
  have htarget : (pinboardWorld.objects.get? ⟨2⟩).map (·.name) = some "note" := by decide +kernel
  have hobject : (pinboardWorld.objects.get? ⟨1⟩).isSome := by decide +kernel
  obtain ⟨k, hk, hstore⟩ := Option.map_eq_some_iff.mp hcomponent
  obtain ⟨target, ht, hname⟩ := Option.map_eq_some_iff.mp htarget
  obtain ⟨ob, hob⟩ := Option.isSome_iff_exists.mp hobject
  have hk : pinboardWorld.component ⟨1⟩ "hull" = .ok k := by
    cases hfound : pinboardWorld.component ⟨1⟩ "hull" with
    | ok m => rw [hfound] at hk; cases hk; rfl
    | error e => rw [hfound] at hk; cases hk
  refine ⟨k, target, hk, hstore, ht, hname,
    bindComponent_eq_value_iff.mpr ⟨k, ob, target, hk, hob, ht, ?_⟩⟩
  rw [hstore, hname]
  rfl

/-- The component is bound to the other object, to nothing when that is deleted, and in the
end to the new object. -/
theorem component_of_pinboard :
    (pinboardBound.world.replay (pinboardSince 1)).boundTo ⟨1⟩ "hull" = .ok (some ⟨2⟩) ∧
    (pinboardBound.world.replay (pinboardSince 2)).boundTo ⟨1⟩ "hull" = .ok none ∧
    (pinboardBound.world.replay (pinboardSince 3)).boundTo ⟨1⟩ "hull" = .ok (some ⟨3⟩) := by
  obtain ⟨k, target, hk, hstore, ht, hname, hbind⟩ := exists_pinboard_component
  have hkept (j : Nat) (h : ∀ e ∈ pinboardSince j, e.write? ≠ some (⟨1⟩, "::Board::hull")) :
      ∀ e ∈ pinboardSince j, e.write? ≠ some (⟨1⟩, k.store) := by
    rw [hstore]
    exact h
  obtain ⟨_, -, -, -, hbound, -⟩ := component_of_binding hbind (stretch_pinboardSince 1) hk
    (hkept 1 (by decide +kernel)) (by decide +kernel)
  obtain ⟨target', ht', -, -, -, hunbound⟩ := component_of_binding hbind (stretch_pinboardSince 2)
    hk (hkept 2 (by decide +kernel)) (by decide +kernel)
  cases ht.symm.trans ht'
  obtain ⟨target', ht', hagain, -⟩ := component_of_binding hbind (stretch_pinboardSince 3) hk
    (hkept 3 (by decide +kernel)) (by decide +kernel)
  cases ht.symm.trans ht'
  refine ⟨hbound (by decide +kernel), hunbound (by decide +kernel) fun cls hcreated => ?_, ?_⟩
  · have hnone : ∀ e ∈ pinboardSince 2, pinboardWorld.given? e = none := by decide +kernel
    exact Option.some_ne_none _ (hnone _ hcreated)
  · rw [hagain, hname]
    decide +kernel

/-- **A component can be bound to an object that nobody bound it to**, after its target was
deleted. -/
theorem exists_component_of_another :
    ¬ ∀ (opts : EngineOptions) (w : World) (es : List Event) (o t : ObjectId) (n : String)
      (k : Component) (s : State), bindComponent o n t { world := w } = (.value (), s) →
      Session.Stretch opts s.world es → w.component o n = .ok k →
      (∀ e ∈ es, e.write? ≠ some (o, k.store)) →
      ((s.world.replay es).objects.get? o).isSome → (s.world.replay es).objects.get? t = none →
      (s.world.replay es).boundTo o n = .ok none := by
  intro h
  obtain ⟨k, target, hk, hstore, -, -, hbind⟩ := exists_pinboard_component
  have hkept : ∀ e ∈ pinboardSince 3, e.write? ≠ some (⟨1⟩, k.store) := by
    rw [hstore]
    decide +kernel
  have hnone := h {} pinboardWorld (pinboardSince 3) ⟨1⟩ ⟨2⟩ "hull" k pinboardBound hbind
    (stretch_pinboardSince 3) hk hkept (by decide +kernel)
    (Option.isNone_iff_eq_none.mp (by decide +kernel))
  have hsome : ((pinboardBound.world.replay (pinboardSince 3)).boundTo ⟨1⟩ "hull").toOption =
      some (some ⟨3⟩) := by
    decide +kernel
  rw [hnone] at hsome
  cases hsome

end ObjectDispatch
