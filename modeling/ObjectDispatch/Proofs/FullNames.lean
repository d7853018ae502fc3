import ObjectDispatch.Proofs.Installation

/-!
# What full names mean

Every member is known by a family of names, from its simple name to its full name, and
the first member that has a name among its spellings gets it.  Simple names are taken by
overriding functions and shadowing variables, and qualified ones by members of classes of
the same name in other namespaces.

Where names are made of words, full names are safe from that: the full name of a member is
a spelling of no other member.  So along a heritage it means what its class has under that
name.

## Main results

* `Registry.Built.memberName_mem_spellings_iff` — a full name is a spelling of one member.
* `Class.map_resolveVar?_memberName`, `Class.resolveFunction?_memberName` — **what the full
  name of a member means.**
* `full_names_of_heritage` — **no member is hidden from its full name.**
-/

namespace ObjectDispatch

variable {o : EngineOptions} {r : Registry} {id k : ClassId} {c d : Class} {n : String}

namespace Registry.Built

/-- The names of a class are read from the global namespace. -/
theorem isAnchored (hr : r.Built o) (hc : r.get? id = some c) : Name.isAnchored c.fullName := by
  obtain ⟨r₀, -, -, hmade, -⟩ := hr.exists_madeIn hc
  exact hmade.anchored

section

variable {j : ClassId} {e : Class} {m : String} (hr : r.Built o)
variable (hd : r.get? k = some d) (he : r.get? j = some e)
variable (hdwords : ∀ p ∈ (Name.pieces d.fullName.toList).tail, Name.IsWord p)
variable (hewords : ∀ p ∈ (Name.pieces e.fullName.toList).tail, Name.IsWord p)
variable (hm : Name.IsWord m.toList) (hn : Name.IsWord n.toList)

include hr hd he hdwords hewords hm hn

/-- A full name tells the class and the name of the member, among registered classes. -/
theorem memberName_eq_iff : d.memberName m = e.memberName n ↔ k = j ∧ m = n := by
  constructor
  · intro h
    obtain ⟨hcls, hname⟩ := Class.memberName_inj hdwords hewords (hr.isAnchored hd)
      (hr.isAnchored he) hn hm h
    exact ⟨hr.eq_of_fullName_eq hd he hcls, hname⟩
  · rintro ⟨rfl, rfl⟩
    cases hd.symm.trans he
    rfl

/-- **A full name is a spelling of one member**, among registered classes. -/
theorem memberName_mem_spellings_iff :
    d.memberName m ∈ Name.spellings (e.memberName n) ↔ k = j ∧ m = n := by
  rw [Class.memberName_mem_spellings_iff hdwords hewords (hr.isAnchored hd) (hr.isAnchored he) hn]
  exact hr.memberName_eq_iff hd he hdwords hewords hm hn

end

/-- The members of one kind along a heritage, of which the classes have those in their
tables: the first that has the full name of a member of the class `d` among its spellings
is that member. -/
theorem find?_memberName {α : Type} {name fullName : α → String} {P : Class → α → Prop}
    (hr : r.Built o) (table : Class → MemberTable α)
    (hholds : ∀ j e, r.get? j = some e → (table e).Holds name (P e))
    (hfull : ∀ e a, P e a → fullName a = e.memberName (name a))
    (hcomponents : ∀ j ∈ c.heritage, ∀ e, r.get? j = some e →
      ∀ p ∈ (Name.pieces e.fullName.toList).tail, Name.IsWord p)
    (hwords : ∀ j ∈ c.heritage, ∀ e, r.get? j = some e →
      ∀ a ∈ (table e).toList, Name.IsWord (name a).toList)
    (hk : k ∈ c.heritage) (hd : r.get? k = some d) (hn : Name.IsWord n.toList) (p : α → Bool) :
    ((c.heritage.filterMap r.get?).flatMap fun e => (table e).toList).find?
      (fun a => p a && d.memberName n ∈ Name.spellings (fullName a)) =
        ((table d).get? n).filter p := by
  have hspelled {j : ClassId} {e : Class} (hj : j ∈ c.heritage) (he : r.get? j = some e) {a : α}
      (ha : a ∈ (table e).toList) :
      d.memberName n ∈ Name.spellings (fullName a) ↔ k = j ∧ n = name a := by
    rw [hfull e a ((hholds j e he).all a ha)]
    exact hr.memberName_mem_spellings_iff hd he (hcomponents k hk d hd) (hcomponents j hj e he) hn
      (hwords j hj e he a ha)
  refine find?_eq_of_forall_iff fun a => ?_
  rw [Option.filter_eq_some_iff, (hholds k d hd).get?_eq_some_iff, mem_flatMap_heritage_iff,
    Bool.and_eq_true, decide_eq_true_eq]
  constructor
  · rintro ⟨⟨ha, rfl⟩, hp⟩
    exact ⟨⟨k, hk, d, hd, ha⟩, hp, (hspelled hk hd ha).mpr ⟨rfl, rfl⟩⟩
  · rintro ⟨⟨j, hj, e, he, ha⟩, hp, hmem⟩
    obtain ⟨rfl, rfl⟩ := (hspelled hj he ha).mp hmem
    cases hd.symm.trans he
    exact ⟨⟨ha, rfl⟩, hp⟩

end Registry.Built

namespace Class

/-- **The full name of a variable** means what its class has under that name. -/
theorem map_resolveVar?_memberName (hr : r.Built o) (hc : r.get? id = some c)
    (hnames : ∀ j ∈ c.heritage, ∀ e, r.get? j = some e → e.WellNamed) (hk : k ∈ c.heritage)
    (hd : r.get? k = some d) (hn : Name.IsWord n.toList) :
    (c.resolveVar? (d.memberName n)).map (·.var) = d.ownVariable? n := by
  have hfind := hr.find?_memberName Class.ownVariables
    (fun j e he => (hr.formed he).ownVariables) (fun e v hv => hv.fullName_eq)
    (fun j hj e he => (hnames j hj e he).components)
    (fun j hj e he => (hnames j hj e he).varNames) hk hd hn fun _ => true
  simp only [Bool.true_and] at hfind
  rw [map_resolveVar? hr hc, ownVariable?]
  refine hfind.trans ?_
  cases d.ownVariables.get? n <;> rfl

/-- **The full name of a function** means what its class has under that name, if that is
no lifecycle function. -/
theorem resolveFunction?_memberName (hr : r.Built o) (hc : r.get? id = some c)
    (hnames : ∀ j ∈ c.heritage, ∀ e, r.get? j = some e → e.WordNamed) (hk : k ∈ c.heritage)
    (hd : r.get? k = some d) (hn : Name.IsWord n.toList) :
    c.resolveFunction? (d.memberName n) = (d.function? n).filter (!·.isLifecycle) := by
  rw [resolveFunction?_eq_find? hr hc]
  exact hr.find?_memberName Class.functions
    (fun j e he => (hr.formed he).functions) (fun e f hf => hf.fullName_eq)
    (fun j hj e he => (hnames j hj e he).components)
    (fun j hj e he => (hnames j hj e he).functionNames) hk hd hn fun f => !f.isLifecycle

end Class

/-- **No member is hidden from its full name**, at any moment of any session.  Where names
are words, the full name of a variable of a class in the heritage means that variable, and
that of a function means that function, unless it takes part in the lifecycle.  So it is
whatever functions override it, whatever variables shadow it, and whatever the classes in
other namespaces are called. -/
theorem full_names_of_heritage {w : World} (h : Session.Reachable o w)
    (hc : w.registry.get? id = some c)
    (hnames : ∀ j ∈ c.heritage, ∀ e, w.registry.get? j = some e → e.WellNamed ∧ e.WordNamed)
    (hk : k ∈ c.heritage) :
    ∃ d, w.registry.get? k = some d ∧
      (∀ v ∈ d.ownVariables.toList, v.fullName = d.memberName v.name ∧
        (c.resolveVar? v.fullName).map (·.var) = some v) ∧
      ∀ f ∈ d.functions.toList, f.flags.isConstructor = false → f.flags.isDestructor = false →
        f.fullName = d.memberName f.name ∧ c.resolveFunction? f.fullName = some f := by
  have hr := h.built
  obtain ⟨d, hd⟩ := hr.exists_get?_of_mem_heritage hc hk
  obtain ⟨hwell, hword⟩ := hnames k hk d hd
  have hformed := hr.formed hd
  refine ⟨d, hd, fun v hv => ?_, fun f hf hctor hdtor => ?_⟩
  · have hfull : v.fullName = d.memberName v.name := (hformed.ownVariables.all v hv).fullName_eq
    have hown : d.ownVariable? v.name = some v :=
      hformed.ownVariables.get?_eq_some_iff.mpr ⟨hv, rfl⟩
    refine ⟨hfull, ?_⟩
    rw [hfull, Class.map_resolveVar?_memberName hr hc (fun j hj e he => (hnames j hj e he).1) hk hd
      (hwell.varNames v hv), hown]
  · have hfull : f.fullName = d.memberName f.name := (hformed.functions.all f hf).fullName_eq
    have hown : d.function? f.name = some f := hformed.functions.get?_eq_some_iff.mpr ⟨hf, rfl⟩
    refine ⟨hfull, ?_⟩
    rw [hfull, Class.resolveFunction?_memberName hr hc (fun j hj e he => (hnames j hj e he).2) hk hd
      (hword.functionNames f hf), hown]
    simp [MemberFunction.isLifecycle, hctor, hdtor]

/-- Defines two classes of one simple name, each in a namespace of its own, and one that
inherits from both of them through the second.  All have members of the same names. -/
def namesakes : List Expr :=
  [.defineClass
      { name := "ui::Base"
        members := [.var "color" .pub none, .method "paint" .pub (.const (.str "ui"))] },
    .defineClass
      { name := "app::Base", inherits := ["ui::Base"]
        members := [.var "color" .pub none, .method "paint" .priv (.const (.str "app"))] },
    .defineClass
      { name := "Derived", inherits := ["app::Base"]
        members := [.var "color" .priv none, .method "paint" .pub (.const (.str "derived"))] }]

/-- The world in which they are defined. -/
def namesakesWorld : World :=
  (World.initial {}).replay ((Session.history 0 (World.initial {}) namesakes).take 3)

/-- The names with one namespace mean members of the second class, and the full names
those of the first. -/
theorem full_names_of_namesakes :
    ∃ c d v f, namesakesWorld.registry.get? ⟨2⟩ = some c ∧
      namesakesWorld.registry.get? ⟨0⟩ = some d ∧
      d.ownVariable? "color" = some v ∧ d.function? "paint" = some f ∧
      (c.resolveVar? "Base::color").map (·.var.owner) = some ⟨1⟩ ∧
      (c.resolveFunction? "Base::paint").map (·.owner) = some ⟨1⟩ ∧
      (c.resolveVar? "::ui::Base::color").map (·.var) = some v ∧
      c.resolveFunction? "::ui::Base::paint" = some f := by
  have hreachable : Session.Reachable {} namesakesWorld :=
    (Session.stretch_of_history {} 0 namesakes 3 0).reachable
  have hheritage : (namesakesWorld.registry.get? ⟨2⟩).map (fun c => (c.heritage,
      (c.resolveVar? "Base::color").map (·.var.owner),
      (c.resolveFunction? "Base::paint").map (·.owner))) =
        some ([⟨2⟩, ⟨1⟩, ⟨0⟩], some ⟨1⟩, some ⟨1⟩) := by
    decide +kernel
  obtain ⟨c, hc, hparts⟩ := Option.map_eq_some_iff.mp hheritage
  simp only [Prod.mk.injEq] at hparts
  obtain ⟨hheritage, hvar, hfun⟩ := hparts
  have hwords : ∀ d ∈ namesakesWorld.registry.classes, d.WordNamed ∧
      ∀ v ∈ d.ownVariables.toList, Name.IsWord v.name.toList := by
    decide +kernel
  have hnames (j : ClassId) (e : Class) (he : namesakesWorld.registry.get? j = some e) :
      e.WellNamed ∧ e.WordNamed :=
    have hword := hwords e (Registry.mem_of_get? he)
    ⟨⟨hword.1.components, hword.2⟩, hword.1⟩
  obtain ⟨d, hd, hvars, hfuns⟩ := full_names_of_heritage hreachable hc
    (fun j _ e he => hnames j e he) (k := ⟨0⟩) (by rw [hheritage]; decide)
  have hmembers : (namesakesWorld.registry.get? ⟨0⟩).map (fun d =>
      ((d.ownVariable? "color").map (·.fullName), (d.function? "paint").map
        (fun f => (f.fullName, f.flags)))) =
          some (some "::ui::Base::color", some ("::ui::Base::paint", {})) := by
    decide +kernel
  rw [hd, Option.map_some, Option.some.injEq, Prod.mk.injEq] at hmembers
  obtain ⟨v, hv, hvname⟩ := Option.map_eq_some_iff.mp hmembers.1
  obtain ⟨f, hf, hfname⟩ := Option.map_eq_some_iff.mp hmembers.2
  simp only [Prod.mk.injEq] at hfname
  obtain ⟨hfname, hflags⟩ := hfname
  refine ⟨c, d, v, f, hc, hd, hv, hf, hvar, hfun, ?_, ?_⟩
  · rw [← hvname]
    exact (hvars v (MemberTable.mem_toList_of_get? hv)).2
  · rw [← hfname]
    exact (hfuns f (MemberTable.mem_toList_of_get? hf) (by rw [hflags]) (by rw [hflags])).2

end ObjectDispatch
