import ObjectDispatch.Proofs.OptionReports
import ObjectDispatch.Proofs.Scopes
import ObjectDispatch.Proofs.Writing

/-!
# Private variables

The values of an object are kept together, under the full names of variables.  Where
names are well formed, full names tell the variables of all classes apart, so to write
under the full name of a private variable is to write that variable.  Code of other
classes may not use it, it is no option, and unless a component is kept in it nothing
else can name it.

So the value of a private variable in an object stays as it is, whatever happens, as
long as no code of its class runs and the object lives.  Only the creation of the object
itself sets it once, when no class has begun to construct the object: that is when its
initial value is stored.

## Main definitions

* `Registry.Hides` — a class has a private variable.
* `World.IsOutside` — no code of a class is running.

## Main results

* `World.AllowsWrite.cases_of_hides` — what can write a private variable.
* `value_of_private_variable` — **a private variable keeps its value while no code of
  its class runs.**
-/

namespace ObjectDispatch

/-- The class `k` has the private variable `v`, and keeps no component in it. -/
structure Registry.Hides (r : Registry) (k : ClassId) (v : Variable) : Prop where
  own : ∃ c, r.get? k = some c ∧ v ∈ c.ownVariables.toList ∧
    ∀ m ∈ c.components.toList, m.store ≠ v.fullName
  isPrivate : v.protection = .priv

/-- The running code, if there is any, is not that of the class `k`. -/
def World.IsOutside (w : World) (k : ClassId) : Prop :=
  w.stack.current?.map (·.scope) ≠ some k

instance (w : World) (k : ClassId) : Decidable (w.IsOutside k) :=
  inferInstanceAs (Decidable (_ ≠ _))

section

variable {opts : EngineOptions} {r : Registry} {k : ClassId} {v : Variable} {w : World}
  {e : Event} {es : List Event} {o : ObjectId} {ob ob' : Object}

/-! ### What can write a private variable -/

/-- A variable of some heritage that has the full name of a private variable is that
variable. -/
theorem Registry.Hides.eq_of_fullName_eq (hv : r.Hides k v) (hr : r.Built opts)
    (hnames : r.WellNamed) {c : Class} {u : Variable} (hu : u ∈ r.variablesOf c)
    (h : u.fullName = v.fullName) : u = v := by
  obtain ⟨d, hd, hvd, -⟩ := hv.own
  obtain ⟨a, -, b, hb, hub⟩ := mem_variablesOf_iff.mp hu
  exact hr.eq_of_variable_fullName_eq hnames hb hd hub hvd h.symm

/-- Only the class that has the variable may use it. -/
theorem Registry.Hides.eq_of_accessible (hv : r.Hides k v) (hr : r.Built opts)
    (hnames : r.WellNamed) {a : ClassId} {c : Class} (hc : r.get? a = some c) {n : String}
    {entry : VarLookup} (hn : c.resolveVar? n = some entry) (haccess : entry.accessible = true)
    (h : entry.var.fullName = v.fullName) : a = k := by
  have hvar : entry.var = v :=
    hv.eq_of_fullName_eq hr hnames (Class.mem_variablesOf_of_resolveVar? hr hc hn) h
  have hown : v ∈ c.ownVariables.toList := by
    by_contra hnot
    have hfalse := (Class.accessible_eq_false_iff hr hc hn).mpr
      ⟨by rw [hvar]; exact hv.isPrivate, by rw [hvar]; exact hnot⟩
    rw [haccess] at hfalse
    cases hfalse
  obtain ⟨d, hd, hvd, -⟩ := hv.own
  rw [← hr.owner_eq hc hown, hr.owner_eq hd hvd]

/-- No component is kept in the variable, in no class. -/
theorem Registry.Hides.store_ne (hv : r.Hides k v) (hr : r.Built opts) (hnames : r.WellNamed)
    {a : ClassId} {c : Class} (hc : r.get? a = some c) {m : Component}
    (hm : m ∈ c.components.toList) : m.store ≠ v.fullName := by
  intro h
  obtain ⟨d, hd, hvd, hstores⟩ := hv.own
  -- a component is kept in a variable of its own class
  obtain ⟨u, hu, hstore⟩ := (hr.formed hc).stores m hm
  obtain rfl := hr.eq_of_variable_fullName_eq hnames hc hd hu hvd (by rw [hstore, h])
  have hsame : a = k := by rw [← hr.owner_eq hc hu, hr.owner_eq hd hvd]
  subst hsame
  cases hc.symm.trans hd
  exact hstores m hm h

/-- **What can write a private variable**: code of its class that runs on the object, and
the creation of the object.  The classes of the world are among those of `r`. -/
theorem World.AllowsWrite.cases_of_hides (h : w.AllowsWrite e) (hgrows : w.registry.GrowsTo r)
    (hr : r.Built opts) (hnames : r.WellNamed) (hv : r.Hides k v)
    (he : e.write? = some (o, v.fullName)) :
    (∃ g, w.stack.current? = some g ∧ g.scope = k ∧ g.object = some o) ∨
      ∃ ob x, w.objects.get? o = some ob ∧ ob.constructed = [] ∧ v.init = some x ∧
        e = .assigned o v.fullName x := by
  cases h with
  | nothing he' =>
    rw [he'] at he
    cases he
  | @inScope g o' c n entry hg ho hc hn haccess he' =>
    rw [he', Option.some.injEq, Prod.mk.injEq] at he
    obtain ⟨rfl, hfull⟩ := he
    exact Or.inl ⟨g, hg, hv.eq_of_accessible hr hnames (hgrows.get? hc) hn haccess hfull, ho⟩
  | @option o' ob c n entry hob hc hn hpublic he' =>
    rw [he', Option.some.injEq, Prod.mk.injEq] at he
    have hvar : entry.var = v := hv.eq_of_fullName_eq hr hnames
      (Class.mem_variablesOf_of_resolveVar? hr (hgrows.get? hc) hn) he.2
    rw [hvar, Variable.isPublic, hv.isPrivate] at hpublic
    exact absurd hpublic (by decide)
  | component _ _ _ hd hm he' =>
    -- components are kept in variables of their own
    rw [he', Option.some.injEq, Prod.mk.injEq] at he
    exact absurd he.2 (hv.store_ne hr hnames (hgrows.get? hd) hm)
  | @initial o' ob c u x hob hnew _ hu hx he' =>
    subst he'
    simp only [Event.write?, Option.some.injEq, Prod.mk.injEq] at he
    obtain ⟨rfl, hfull⟩ := he
    obtain ⟨a, ha, d, hd, hud⟩ := Registry.mem_variablesOf_iff.mp hu
    have hu : u ∈ r.variablesOf c :=
      Registry.mem_variablesOf_iff.mpr ⟨a, ha, d, hgrows.get? hd, hud⟩
    obtain rfl := hv.eq_of_fullName_eq hr hnames hu hfull
    exact Or.inr ⟨ob, x, hob, hnew, hx, rfl⟩

/-! ### What keeps a value -/

/-- The value of a variable stays as it is where the variable is not written. -/
theorem Event.value?_change {x : String} (he : e.write? ≠ some (o, x)) (ob : Object) :
    (e.change o ob).value? x = ob.value? x := by
  have hother {k : ObjectId} {y : String} (hk : k = o) (hwrite : e.write? = some (k, y)) :
      x ≠ y := by
    rintro rfl
    exact he (hk ▸ hwrite)
  cases e with
  | assigned k y z =>
    show (if k = o then ob.set y z else ob).value? x = _
    split
    · next hk => exact (ob.vars.find?_insert y x z).trans (if_neg (hother hk rfl))
    · rfl
  | cleared k y =>
    show (if k = o then ob.unset y else ob).value? x = _
    split
    · next hk => exact (ob.vars.find?_erase y x).trans (if_neg (hother hk rfl))
    · rfl
  | constructorMarked | destructorMarked | destructorsForgotten =>
    simp only [change]
    split <;> rfl
  | _ => rfl

theorem World.value?_after (hob : w.objects.get? o = some ob)
    (hob' : (w.after e).objects.get? o = some ob') {x : String} (he : e.write? ≠ some (o, x)) :
    ob'.value? x = ob.value? x := by
  rcases World.cases_of_get?_after hob' with ⟨_, hold, rfl⟩ | ⟨hdead, -⟩
  · cases hob.symm.trans hold
    exact Event.value?_change he ob
  · cases hob.symm.trans hdead

/-- A value that is assigned is there. -/
theorem World.value?_after_assigned {x : String} {y : Value}
    (hob' : (w.after (.assigned o x y)).objects.get? o = some ob') : ob'.value? x = some y := by
  rcases World.cases_of_get?_after hob' with ⟨ob, -, rfl⟩ | ⟨-, _, _, hevent, -⟩
  · rw [Event.change_assigned]
    exact (ob.vars.find?_insert x x y).trans (if_pos rfl)
  · cases hevent

/-- What becomes of the value of `v`: it is the same in `ob'` as in `ob`, or `ob` has not
begun to be constructed, and `ob'` has the initial value. -/
def Variable.KeptOrSet (v : Variable) (ob ob' : Object) : Prop :=
  ob'.value? v.fullName = ob.value? v.fullName ∨
    ob.constructed = [] ∧ ∃ x, v.init = some x ∧ ob'.value? v.fullName = some x

/-- Outside the class of a private variable, one event leaves its value as it is. -/
theorem World.AllowsWrite.keptOrSet (h : w.AllowsWrite e) (hgrows : w.registry.GrowsTo r)
    (hr : r.Built opts) (hnames : r.WellNamed) (hv : r.Hides k v) (houtside : w.IsOutside k)
    (hob : w.objects.get? o = some ob) (hob' : (w.after e).objects.get? o = some ob') :
    v.KeptOrSet ob ob' := by
  by_cases he : e.write? = some (o, v.fullName)
  · rcases h.cases_of_hides hgrows hr hnames hv he with ⟨g, hg, hscope, -⟩ | hinitial
    · exact absurd (by rw [hg, Option.map_some, hscope]) houtside
    · obtain ⟨ob₀, x, hob₀, hnew, hx, rfl⟩ := hinitial
      cases hob.symm.trans hob₀
      exact Or.inr ⟨hnew, x, hx, World.value?_after_assigned hob'⟩
  · exact Or.inl (World.value?_after hob hob' he)

/-- Outside the class of a private variable, a run of events leaves its value as it is: an
induction on the events. -/
theorem World.keptOrSet_replay (heach : w.Each World.AllowsWrite es)
    (hgrows : (w.replay es).registry.GrowsTo r) (hr : r.Built opts) (hnames : r.WellNamed)
    (hv : r.Hides k v) (houtside : w.Always (·.IsOutside k) es)
    (ho : o.number ≤ w.objects.created) (hob : w.objects.get? o = some ob)
    (hob' : (w.replay es).objects.get? o = some ob') : v.KeptOrSet ob ob' := by
  induction es generalizing w ob with
  | nil =>
    cases hob.symm.trans hob'
    exact Or.inl rfl
  | cons e es ih =>
    obtain ⟨hfirst, heach⟩ := heach
    have hleads := World.leadsTo_after w e
    have hlater := World.leadsTo_replay (w.after e) es
    have ho' := Nat.le_trans ho hleads.created
    -- an object that lives in the end lives after the first event
    obtain ⟨ob₁, hob₁, -⟩ := hlater.objects o ob' ho' hob'
    have hstep := hfirst.keptOrSet ((hleads.registry.trans hlater.registry).trans hgrows) hr
      hnames hv (houtside 0) hob hob₁
    have hrest := ih heach hgrows (fun n => houtside (n + 1)) ho' hob₁ hob'
    have hnew (h : ob₁.constructed = []) : ob.constructed = [] := by
      obtain ⟨ob₀, hob₀, -, hmarks⟩ := hleads.objects o ob₁ ho hob₁
      cases hob.symm.trans hob₀
      rw [h] at hmarks
      exact List.eq_nil_of_subset_nil hmarks
    rcases hrest with hvalue | ⟨hconstructed, hset⟩
    · rcases hstep with hfirst | ⟨hconstructed, x, hx, hfirst⟩
      · exact Or.inl (hvalue.trans hfirst)
      · exact Or.inr ⟨hconstructed, x, hx, hvalue.trans hfirst⟩
    · exact Or.inr ⟨hnew hconstructed, hset⟩

/-- **A private variable keeps its value while no code of its class runs**, in every part
of every session in which names are well formed, and in every object that lives through
it.  A frame is the innermost one when it is entered, so no frame of the class is entered
or current.  The value is the same in the end as in the beginning, set or unset.  Only where
the part begins in the middle of the creation of the object itself, before any class has
begun to construct it and any code can have met it, the initial value may be stored yet. -/
theorem value_of_private_variable (h : Session.Stretch opts w es)
    (hnames : (w.replay es).registry.WellNamed) (hv : (w.replay es).registry.Hides k v)
    (houtside : w.Always (·.IsOutside k) es) (hob : w.objects.get? o = some ob)
    (hob' : (w.replay es).objects.get? o = some ob') :
    ob'.value? v.fullName = ob.value? v.fullName ∨
      ob.constructed = [] ∧ ∃ x, v.init = some x ∧ ob'.value? v.fullName = some x := by
  have hsound := h.sound.replay h.admitsAll
  exact World.keptOrSet_replay h.each_allowsWrite (.refl _) hsound.built hnames hv houtside
    (h.sound.allocated o ob hob) hob hob'

end

/-- Defines a class with a private variable, and one that inherits from it and has an
option of the same name; creates an object of the second, and has its code write all it
can by that name. -/
def strongbox : List Expr :=
  [.defineClass { name := "Root" },
    .defineClass
      { name := "Safe", inherits := ["Root"]
        members := [.var "code" .priv (some (.str "1234"))] },
    .defineClass
      { name := "Box", inherits := ["Safe"]
        members := [.var "code" .pub none,
          .method "pry" .pub (.sequence
            [.setVar (.const (.str "code")) (.const (.str "0")),
              .unsetVar (.const (.str "code")),
              .guarded (.setVar (.const (.str "Safe::code")) (.const (.str "0"))),
              .guarded (.unsetVar (.const (.str "Safe::code")))])] },
    .create (some (.const (.str "Box"))) (.const (.str "b")) [],
    .invoke (some (.const (.str "b"))) (.const (.str "pry")) [],
    .invoke (some (.const (.str "b"))) (.const (.str "configure"))
      [.const (.str "-code"), .const (.str "0")],
    .create (some (.const (.str "Box"))) (.const (.str "other")) [],
    .delete (some (.const (.str "other")))]

/-- What happens in that session after the creation of the object. -/
def strongboxEvents : List Event :=
  ((Session.history 0 (World.initial {}) strongbox).drop 10).take 15

/-- The world at the beginning of that. -/
def strongboxWorld : World :=
  (World.initial {}).replay ((Session.history 0 (World.initial {}) strongbox).take 10)

/-- The value is what it was when the object had been created. -/
theorem value_of_strongbox :
    ∃ ob ob' x, strongboxWorld.objects.get? ⟨1⟩ = some ob ∧
      (strongboxWorld.replay strongboxEvents).objects.get? ⟨1⟩ = some ob' ∧
      ob.value? "::Safe::code" = some x ∧ ob'.value? "::Safe::code" = some x ∧
      x.text = "1234" := by
  have hstretch : Session.Stretch {} strongboxWorld strongboxEvents :=
    Session.stretch_of_history {} 0 strongbox 10 15
  have hclass : (((strongboxWorld.replay strongboxEvents).registry.get? ⟨1⟩).bind fun c =>
      (c.ownVariable? "code").map fun v =>
        (v.fullName, v.protection, decide (∀ m ∈ c.components.toList, m.store ≠ v.fullName))) =
      some ("::Safe::code", .priv, true) := by
    decide +kernel
  have hbegin : (strongboxWorld.objects.get? ⟨1⟩).map (fun ob =>
      ((ob.value? "::Safe::code").map (·.text), decide (ob.constructed = []))) =
      some (some "1234", false) := by
    decide +kernel
  have hend : ((strongboxWorld.replay strongboxEvents).objects.get? ⟨1⟩).isSome := by
    decide +kernel
  obtain ⟨c, hc, hvar⟩ := Option.bind_eq_some_iff.mp hclass
  obtain ⟨v, hv, hparts⟩ := Option.map_eq_some_iff.mp hvar
  simp only [Prod.mk.injEq, decide_eq_true_eq] at hparts
  obtain ⟨hname, hpriv, hstores⟩ := hparts
  obtain ⟨ob, hob, hvalue⟩ := Option.map_eq_some_iff.mp hbegin
  simp only [Prod.mk.injEq, decide_eq_false_iff_not] at hvalue
  obtain ⟨hvalue, hbegun⟩ := hvalue
  obtain ⟨x, hx, htext⟩ := Option.map_eq_some_iff.mp hvalue
  obtain ⟨ob', hob'⟩ := Option.isSome_iff_exists.mp hend
  have hnames : (strongboxWorld.replay strongboxEvents).registry.WellNamed :=
    Registry.wellNamed_of_forall (by decide +kernel)
  have hkept := value_of_private_variable hstretch hnames
    ⟨⟨c, hc, MemberTable.mem_toList_of_get? hv, hstores⟩, hpriv⟩
    (World.always_of_forall_le (by decide +kernel)) hob hob'
  rw [hname, hx] at hkept
  exact ⟨ob, ob', x, hob, hob', hx, hkept.resolve_right fun h => hbegun h.1, htext⟩

end ObjectDispatch
