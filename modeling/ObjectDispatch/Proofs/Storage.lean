import ObjectDispatch.Proofs.HookFailures
import ObjectDispatch.Proofs.MemberNames

/-!
# Where values are stored

An object stores the values of its variables under their full names, and a full name is
the name of a class and the name of a variable with a mark between them.  Neither name is
kept from having colons at the mark.  So the text can be read in two ways when one colon
can count as the end of the class name or as the beginning of the variable name, and the
two variables are then stored in one place.

That is the only way, as long as no variable has a mark in its name.  Declared variables
have none, and neither have those of composite classes if the options name none with one.

## Main definitions

* `Variable.Shifts` — the same full name, with the mark read one colon later.
* `Run.Leaves` — a run after which a value is what it was.

## Main results

* `Name.member_eq_member_iff` — **when two members have one full name.**
* `storage_of_variables` — **which variables share their storage**, and what the setting
  of one leaves of the other.
-/

namespace ObjectDispatch

/-! ### Full names -/

/-- Text that is read in two ways as two parts with a mark between them, none of which
begins in the second part. -/
theorem eq_or_shifted_of_append_mark {a b m n : List Char} (hm : ¬ [':', ':'] <:+: m)
    (h : a ++ ':' :: ':' :: m = b ++ ':' :: ':' :: n)
    (hlength : a.length ≤ b.length) : a = b ∧ m = n ∨ b = a ++ [':'] ∧ m = ':' :: n := by
  rcases List.append_eq_append_iff.mp h with ⟨t, rfl, ht⟩ | ⟨t, rfl, ht⟩
  · match t, ht with
    | [], ht =>
      cases ht
      exact Or.inl ⟨(List.append_nil a).symm, rfl⟩
    | [c], ht =>
      cases ht
      exact Or.inr ⟨rfl, rfl⟩
    | c :: c' :: t, ht =>
      -- the mark of the second reading would begin in `m`
      cases ht
      exact absurd ⟨t, n, by simp⟩ hm
  · rw [List.length_append] at hlength
    obtain rfl : t = [] := List.eq_nil_of_length_eq_zero (by omega)
    cases ht
    exact Or.inl ⟨List.append_nil b, rfl⟩

/-- **When two members have one full name**: they are the same, or one colon stands at the
end of one class name instead of at the beginning of the other member name. -/
theorem Name.member_eq_member_iff {a b m n : String} (hm : isQualified m = false)
    (hn : isQualified n = false) :
    member a m = member b n ↔
      a = b ∧ m = n ∨ b = a ++ ":" ∧ m = ":" ++ n ∨ a = b ++ ":" ∧ n = ":" ++ m := by
  have htext (x k : String) : (member x k).toList = x.toList ++ ':' :: ':' :: k.toList := by
    simp [member, String.toList_append]
  have hsame (x y : String) : x = y ↔ x.toList = y.toList := String.toList_inj.symm
  have hcolon (x y : String) : y = x ++ ":" ↔ y.toList = x.toList ++ [':'] := by
    rw [hsame, String.toList_append]
    rfl
  have hcolon' (x y : String) : y = ":" ++ x ↔ y.toList = ':' :: x.toList := by
    rw [hsame, String.toList_append]
    rfl
  rw [← Bool.not_eq_true, isQualified_iff] at hm hn
  rw [hsame (member a m), htext, htext, hcolon, hcolon, hcolon', hcolon', hsame a, hsame m]
  constructor
  · intro h
    rcases Nat.le_total a.toList.length b.toList.length with hle | hle
    · rcases eq_or_shifted_of_append_mark hm h hle with hsame | hshifted
      · exact Or.inl hsame
      · exact Or.inr (Or.inl hshifted)
    · rcases eq_or_shifted_of_append_mark hn h.symm hle with ⟨ha, hb⟩ | hshifted
      · exact Or.inl ⟨ha.symm, hb.symm⟩
      · exact Or.inr (Or.inr hshifted)
  · rintro (⟨ha, hb⟩ | ⟨ha, hb⟩ | ⟨ha, hb⟩) <;> rw [ha, hb] <;> simp

/-- The variables `u` of the class `d` and `v` of the class `e` have one full name, where
the mark in it is read one colon later for `v`. -/
def Variable.Shifts (d : Class) (u : Variable) (e : Class) (v : Variable) : Prop :=
  e.fullName = d.fullName ++ ":" ∧ u.name = ":" ++ v.name

instance (d : Class) (u : Variable) (e : Class) (v : Variable) : Decidable (u.Shifts d e v) :=
  inferInstanceAs (Decidable (_ ∧ _))

section

variable {o : EngineOptions} {r : Registry} {a b : ClassId} {d e : Class} {u v : Variable}
variable (hhull : Name.isQualified o.hullComponent = false)
variable (hoptions : Name.isQualified o.optionsVariable = false)

include hhull hoptions

/-- No variable has a mark in its name when the options have none. -/
theorem Registry.Built.isQualified_variable_of_options (hr : r.Built o) (hd : r.get? a = some d)
    (hu : u ∈ d.ownVariables.toList) : Name.isQualified u.name = false := by
  rcases hr.isQualified_variable hd hu with hplain | ⟨-, hname | hname⟩
  · exact hplain
  · rwa [hname]
  · rwa [hname]

/-- **When two variables of registered classes have one full name.** -/
theorem Registry.Built.variable_fullName_eq_iff (hr : r.Built o) (hd : r.get? a = some d)
    (he : r.get? b = some e) (hu : u ∈ d.ownVariables.toList) (hv : v ∈ e.ownVariables.toList) :
    u.fullName = v.fullName ↔ u = v ∨ u.Shifts d e v ∨ v.Shifts e d u := by
  have hsame : d.fullName = e.fullName ∧ u.name = v.name ↔ u = v := by
    constructor
    · rintro ⟨hcls, hname⟩
      obtain rfl := hr.eq_of_fullName_eq hd he hcls
      cases hd.symm.trans he
      exact List.inj_on_of_nodup_map (hr.formed hd).ownVariables.nodup hu hv hname
    · rintro rfl
      have hab : a = b := (hr.owner_eq hd hu).symm.trans (hr.owner_eq he hv)
      subst hab
      cases hd.symm.trans he
      exact ⟨rfl, rfl⟩
  rw [((hr.formed hd).ownVariables.all u hu).fullName_eq,
    ((hr.formed he).ownVariables.all v hv).fullName_eq,
    Name.member_eq_member_iff (hr.isQualified_variable_of_options hhull hoptions hd hu)
      (hr.isQualified_variable_of_options hhull hoptions he hv), hsame]
  rfl

end

/-! ### What is left of other values -/

section

variable {α β : Type} {w : World} {object : ObjectId} {s : State} {u : Variable} {y z : String}

/-- After the run the object has under the full name what it had before. -/
def Run.Leaves (r : Run α) (s : State) (object : ObjectId) (z : String) : Prop :=
  (r s).2.world.stored object z = s.world.stored object z

/-- A variable of an object that is written leaves the others. -/
theorem World.stored_after_write {e : Event} (he : e.write? = some (object, y)) (hne : z ≠ y) :
    (w.after e).stored object z = w.stored object z := by
  have hkept (ob : Object) : (e.change object ob).value? z = ob.value? z :=
    Event.value?_change (by simp [he, Ne.symm hne]) ob
  have hborn : w.born? object e = none := by cases e <;> first | rfl | cases he
  have hstays : e ≠ .objectRemoved object := by
    rintro rfl
    cases he
  unfold stored
  rw [get?_after_of_ne w hstays, hborn, Option.or_none]
  cases w.objects.get? object with
  | none => rfl
  | some ob => exact hkept ob

namespace Run

theorem leaves_of_state {r : Run α} (h : (r s).2 = s) : r.Leaves s object z := by
  unfold Leaves
  rw [h]

theorem leaves_write {e : Event} (he : e.write? = some (object, y)) (hne : z ≠ y) :
    (happen e).Leaves s object z :=
  World.stored_after_write he hne

theorem leaves_bind {r : Run α} {f : α → Run β} (hr : r.Leaves s object z)
    (hf : ∀ a, (f a).Leaves (r s).2 object z) : (r >>= f).Leaves s object z := by
  unfold Leaves at hr ⊢
  rw [bind_apply]
  cases hrun : r s with
  | mk out t =>
    rw [hrun] at hr hf
    cases out with
    | value a => exact (hf a).trans hr
    | failure e => exact hr
    | exhausted => exact hr

theorem leaves_look_bind {g : World → Except DispatchError α} {f : α → Run β}
    (hf : ∀ a, g s.world = .ok a → (f a).Leaves s object z) :
    (look g >>= f).Leaves s object z := by
  cases hg : g s.world with
  | ok a =>
    unfold Leaves
    rw [look_bind_of_ok hg]
    exact hf a hg
  | error e => exact leaves_of_state (by rw [look_bind_of_error hg])

theorem leaves_attempt {r : Run α} (hr : r.Leaves s object z) : (attempt r).Leaves s object z := by
  unfold Leaves at hr ⊢
  rw [attempt_apply]
  cases hrun : r s with
  | mk out t =>
    rw [hrun] at hr
    cases out <;> exact hr

end Run

/-- Code that sets a variable leaves the others. -/
theorem setVariable_leaves {n : String} (hn : s.world.scopedVariable n = .ok (object, u))
    (hne : z ≠ u.fullName) (x : Value) : (setVariable n x).Leaves s object z := by
  unfold setVariable
  refine Run.leaves_look_bind fun p hp => Run.leaves_look_bind fun _ _ => ?_
  cases hn.symm.trans hp
  exact Run.leaves_write rfl hne

/-- Code that unsets a variable leaves the others. -/
theorem unsetVariable_leaves {n : String} (hn : s.world.scopedVariable n = .ok (object, u))
    (hne : z ≠ u.fullName) : (unsetVariable n).Leaves s object z := by
  unfold unsetVariable
  refine Run.leaves_look_bind fun p hp => Run.leaves_look_bind fun ob _ => ?_
  cases hn.symm.trans hp
  split
  · exact Run.leaves_of_state rfl
  · exact Run.leaves_write rfl hne

theorem restore_leaves (hne : z ≠ y) (previous : Option Value) :
    (restore object y previous).Leaves s object z := by
  unfold restore
  refine Run.leaves_bind (Run.leaves_of_state rfl) fun w => ?_
  split
  · cases previous <;> exact Run.leaves_write rfl hne
  · exact Run.leaves_of_state rfl

/-- The assignment of an option leaves the other variables, if the code of its hook does. -/
theorem assignOption_leaves {enter : Enter} (hne : z ≠ u.fullName)
    (hhook : ∀ code t, u.hook = some code →
      (enter (u.hookFrame object) (.hook u code) []).Leaves t object z) (x : Value) :
    (assignOption enter object u x).Leaves s object z := by
  unfold assignOption
  refine Run.leaves_look_bind fun before _ => Run.leaves_bind (Run.leaves_write rfl hne) fun _ => ?_
  split
  · exact Run.leaves_of_state rfl
  · next code hcode =>
    refine Run.leaves_bind (Run.leaves_attempt (hhook code _ hcode)) fun result => ?_
    split
    · exact Run.leaves_of_state rfl
    · exact Run.leaves_bind (restore_leaves hne _) fun _ => Run.leaves_of_state rfl

/-- So does `configure` with one option and a value for it. -/
theorem assignOptions_leaves {enter : Enter} {c : Class} {token : Value} {entry : VarLookup}
    (hentry : findOption c token.text = .ok entry) (hne : z ≠ entry.var.fullName)
    (hhook : ∀ code t, entry.var.hook = some code →
      (enter (entry.var.hookFrame object) (.hook entry.var code) []).Leaves t object z)
    (x : Value) : (assignOptions enter c object [token, x]).Leaves s object z := by
  unfold assignOptions
  rw [hentry]
  show (assignOption enter object entry.var x >>= fun _ => _).Leaves s object z
  exact Run.leaves_bind (assignOption_leaves hne hhook x) fun _ => Run.leaves_of_state rfl

end

/-- **Which variables share their storage**, at any moment of any session whose options name
no variable with a mark, among the variables of all registered classes: those whose class
names and names differ by one colon that stands on either side of the mark, and no others.

Of two variables that share nothing, the one keeps its value in every object when the other
is set or unset by running code, and also when the other is configured, as far as the code
of its hook leaves it. -/
theorem storage_of_variables {o : EngineOptions} {w : World} (hw : Session.Reachable o w)
    (hhull : Name.isQualified o.hullComponent = false)
    (hoptions : Name.isQualified o.optionsVariable = false) {a b : ClassId} {d e : Class}
    (hd : w.registry.get? a = some d) (he : w.registry.get? b = some e) {u v : Variable}
    (hu : u ∈ d.ownVariables.toList) (hv : v ∈ e.ownVariables.toList) :
    (u.fullName = v.fullName ↔ u = v ∨ u.Shifts d e v ∨ v.Shifts e d u) ∧
    (u ≠ v → ¬ u.Shifts d e v → ¬ v.Shifts e d u →
      ∀ (object : ObjectId) (journal : List Event) (x : Value),
      let s : State := { world := w, journal := journal }
      (∀ n, w.scopedVariable n = .ok (object, u) →
        (setVariable n x).Leaves s object v.fullName ∧
        (unsetVariable n).Leaves s object v.fullName) ∧
      ∀ (enter : Enter) (c : Class) (token : Value) (entry : VarLookup),
        findOption c token.text = .ok entry → entry.var = u →
        (∀ code t, u.hook = some code →
          (enter (u.hookFrame object) (.hook u code) []).Leaves t object v.fullName) →
        (assignOptions enter c object [token, x]).Leaves s object v.fullName) := by
  have hiff := hw.built.variable_fullName_eq_iff hhull hoptions hd he hu hv
  refine ⟨hiff, fun hne hshift hshift' object journal x => ?_⟩
  have hfull : v.fullName ≠ u.fullName := by
    intro h
    rcases hiff.mp h.symm with hsame | hleft | hright
    · exact hne hsame
    · exact hshift hleft
    · exact hshift' hright
  refine ⟨fun n hn => ⟨setVariable_leaves hn hfull x, unsetVariable_leaves hn hfull⟩, ?_⟩
  rintro enter c token entry hentry rfl hhook
  exact assignOptions_leaves hentry hfull hhook x

/-- Defines a class whose variable begins with a colon, and one that inherits from it and
has the other half of a mark in its name. -/
def tabs : Expr :=
  .sequence [
    .defineClass { name := "Tab", members := [.var ":x" .pub (some (.str "1"))] },
    .defineClass
      { name := "Tab:b", inherits := ["Tab"], members := [.var "x" .pub (some (.str "2"))] },
    .defineClass
      { name := "Tab:", inherits := ["Tab"], members := [.var "x" .pub (some (.str "3"))] }]

/-- The world after the classes are defined. -/
def tabsWorld : World := (Session.step 0 (World.initial {}) tabs).2.world

/-- The second class has a place of its own for its variable, which is left alone when the
option of the first is set; the third shares the place of the first. -/
theorem storage_of_tabs :
    ∃ u v t : Variable, u.fullName = "::Tab:::x" ∧ v.fullName = "::Tab:b::x" ∧ u ≠ t ∧
      u.fullName = t.fullName ∧
      ∀ object journal x c token entry, findOption c token.text = .ok entry → entry.var = u →
        (assignOptions (enterFrame (runCode 0 1)) c object [token, x]).Leaves
          { world := tabsWorld, journal := journal } object v.fullName := by
  have hreachable : Session.Reachable {} tabsWorld :=
    (Session.Between.next tabs .start (by decide +kernel)).reachable
  have hvariable (k : ClassId) (cls n : String)
      (h : (tabsWorld.registry.get? k).bind (fun c => (c.ownVariables.toList.head?).map fun v =>
        (c.fullName, v.name, v.fullName, v.hook.isNone)) =
          some (cls, n, Name.member cls n, true)) :
      ∃ c v, tabsWorld.registry.get? k = some c ∧ v ∈ c.ownVariables.toList ∧
        c.fullName = cls ∧ v.name = n ∧ v.fullName = Name.member cls n ∧ v.hook = none := by
    obtain ⟨c, hc, hvar⟩ := Option.bind_eq_some_iff.mp h
    obtain ⟨v, hv, hparts⟩ := Option.map_eq_some_iff.mp hvar
    simp only [Prod.mk.injEq, Option.isNone_iff_eq_none] at hparts
    exact ⟨c, v, hc, List.mem_of_mem_head? hv, hparts⟩
  obtain ⟨d, u, hd, hu, hdcls, huname, hufull, huhook⟩ :=
    hvariable ⟨0⟩ "::Tab" ":x" (by decide +kernel)
  obtain ⟨e, v, he, hv, hecls, hvname, hvfull, -⟩ :=
    hvariable ⟨1⟩ "::Tab:b" "x" (by decide +kernel)
  obtain ⟨c, t, hc, ht, hccls, htname, htfull, -⟩ :=
    hvariable ⟨2⟩ "::Tab:" "x" (by decide +kernel)
  have hnames {k : Variable} (hk : k.name = "x") : u ≠ k := by
    rintro rfl
    rw [huname] at hk
    exact absurd hk (by decide)
  have hshared := (storage_of_variables hreachable (by decide) (by decide) hd hc hu ht).1.mpr
    (Or.inr (Or.inl ⟨by rw [hccls, hdcls]; decide, by rw [huname, htname]; decide⟩))
  have hapart := (storage_of_variables hreachable (by decide) (by decide) hd he hu hv).2
    (hnames hvname) (fun h => absurd (hecls ▸ hdcls ▸ h.1) (by decide))
    (fun h => absurd (hecls ▸ hdcls ▸ h.1) (by decide))
  refine ⟨u, v, t, hufull, hvfull, hnames htname, hshared, ?_⟩
  intro object journal x c token entry hentry hvar
  refine (hapart object journal x).2 _ c token entry hentry hvar fun code t hcode => ?_
  rw [huhook] at hcode
  cases hcode

/-- Defines a composite class and one in its namespace that inherits from it, and creates
an object of the second. -/
def drawers : Expr :=
  .sequence [
    .defineClass { name := "Outer", kind := .widget },
    .defineClass
      { name := "Outer::Inner", inherits := ["Outer"]
        members := [.var "x" .pub (some (.str "1"))] },
    .create (some (.const (.str "Outer::Inner"))) (.const (.str "o")) []]

/-- The options under which the variable for options has a mark in its name. -/
def markedOptions : EngineOptions := { optionsVariable := "Inner::x" }

/-- The world after the classes are defined and the object created. -/
def drawersWorld : World := (Session.step 0 (World.initial markedOptions) drawers).2.world

/-- **Two variables of one object share their storage** when the options name a variable
with a mark. -/
theorem exists_shared_storage :
    ¬ ∀ (o : EngineOptions) (w : World) (object : ObjectId) (ob : Object) (c : Class)
      (u v : Variable), Session.Reachable o w → w.objects.get? object = some ob →
      w.registry.get? ob.cls = some c → u ∈ w.registry.variablesOf c →
      v ∈ w.registry.variablesOf c → u ≠ v → u.fullName ≠ v.fullName := by
  intro h
  have hreachable : Session.Reachable markedOptions drawersWorld :=
    (Session.Between.next drawers .start (by decide +kernel)).reachable
  have hobject : (drawersWorld.objects.get? ⟨1⟩).map (·.cls) = some ⟨1⟩ := by decide +kernel
  have hclass : (drawersWorld.registry.get? ⟨1⟩).map (fun c =>
      decide (∃ u ∈ drawersWorld.registry.variablesOf c,
        ∃ v ∈ drawersWorld.registry.variablesOf c, u.name ≠ v.name ∧ u.fullName = v.fullName)) =
      some true := by
    decide +kernel
  obtain ⟨ob, hob, hcls⟩ := Option.map_eq_some_iff.mp hobject
  obtain ⟨c, hc, hparts⟩ := Option.map_eq_some_iff.mp hclass
  obtain ⟨u, hu, v, hv, hname, hfull⟩ := of_decide_eq_true hparts
  rw [← hcls] at hc
  exact h markedOptions drawersWorld ⟨1⟩ ob c u v hreachable hob hc hu hv
    (fun huv => hname (congrArg Variable.name huv)) hfull

end ObjectDispatch
