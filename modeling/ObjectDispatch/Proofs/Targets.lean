import ObjectDispatch.Proofs.Resolution
import ObjectDispatch.Proofs.Succession
import ObjectDispatch.Proofs.Walks

/-!
# What names and chains lead to

A name that is looked up in a class leads to a member of its heritage, and never
to a lifecycle function.  Chaining leads to a function of the same simple name in
the heritage of the class of the running code's object.  A constructor is always
the function of its class that is called `constructor`.

## Main definitions

* `Registry.implementations` — the functions of one name along a list of classes.

## Main results

* `Registry.Built.function?_spec` — the own functions of a class.
* `Registry.Built.resolveFunction?_spec`, `Registry.Built.resolveVar?_spec` — what
  a name leads to.
* `World.exists_of_chainTarget`, `World.chainTarget_eq` — what chaining leads to.
* `World.exists_of_scopedVariable`, `World.exists_of_component`, `exists_of_findOption` —
  what the names of variables, of components and of options lead to.
-/

namespace ObjectDispatch

namespace Registry.Built

variable {o : EngineOptions} {r : Registry} {id : ClassId} {c : Class}

/-- An own function belongs to the class and has the name under which it is
found. -/
theorem function?_spec (hr : r.Built o) (hc : r.get? id = some c) {n : String}
    {f : MemberFunction} (hf : c.function? n = some f) :
    f.owner = id ∧ f.name = n ∧ f.OwnedBy id c.fullName := by
  have hformed := (hr.formed hc).functions
  have howned := hformed.all f (MemberTable.mem_toList_of_get? hf)
  rw [hr.id_eq hc] at howned
  exact ⟨howned.owner_eq, hformed.name_eq hf, howned⟩

/-- What a name means is a function of the heritage that takes no part in the lifecycle
and has the name among its spellings. -/
theorem exists_of_resolveFunction? (hr : r.Built o) (hc : r.get? id = some c) {n : String}
    {f : MemberFunction} (hf : c.resolveFunction? n = some f) :
    f.isLifecycle = false ∧ n ∈ Name.spellings f.fullName ∧
      ∃ k ∈ c.heritage, ∃ d, r.get? k = some d ∧ f ∈ d.functions.toList := by
  rw [Class.resolveFunction?_eq_find? hr hc] at hf
  have hspelled := List.find?_some hf
  rw [Bool.and_eq_true, Bool.not_eq_true', decide_eq_true_eq] at hspelled
  exact ⟨hspelled.1, hspelled.2, mem_functionsOf_iff.mp (List.mem_of_find?_eq_some hf)⟩

/-- A lifecycle function is not found by name, and what is found belongs to the
heritage. -/
theorem resolveFunction?_spec (hr : r.Built o) (hc : r.get? id = some c) {n : String}
    {f : MemberFunction} (hf : c.resolveFunction? n = some f) :
    f.flags.isConstructor = false ∧ f.flags.isDestructor = false ∧ r.IsA id f.owner := by
  obtain ⟨hkind, -, k, hk, d, hd, hfd⟩ := hr.exists_of_resolveFunction? hc hf
  have howner : f.owner = k := by
    rw [((hr.formed hd).functions.all f hfd).owner_eq, hr.id_eq hd]
  rw [MemberFunction.isLifecycle, Bool.or_eq_false_iff] at hkind
  exact ⟨hkind.1, hkind.2, c, hc, howner.symm ▸ hk⟩

theorem resolveVar?_spec (hr : r.Built o) (hc : r.get? id = some c) {n : String} {e : VarLookup}
    (he : c.resolveVar? n = some e) : r.IsA id e.var.owner := by
  obtain ⟨k, hk, d, hd, hv⟩ :=
    mem_variablesOf_iff.mp (Class.mem_variablesOf_of_resolveVar? hr hc he)
  exact ⟨c, hc, (hr.owner_eq hd hv).symm ▸ hk⟩

/-- A constructor is what its class calls `constructor`. -/
theorem function?_constructorName (hr : r.Built o) (hc : r.get? id = some c) {n : String}
    {f : MemberFunction} (hf : c.function? n = some f) (hctor : f.flags.isConstructor = true) :
    c.function? constructorName = some f := by
  obtain ⟨-, hname, howned⟩ := hr.function?_spec hc hf
  rw [← howned.name_of_constructor hctor, hname]
  exact hf

/-- What is not called `constructor` is no constructor. -/
theorem isConstructor_eq_false (hr : r.Built o) (hc : r.get? id = some c) {n : String}
    {f : MemberFunction} (hf : c.function? n = some f) (hn : n ≠ constructorName) :
    f.flags.isConstructor = false := by
  obtain ⟨-, hname, howned⟩ := hr.function?_spec hc hf
  by_contra hctor
  have hother := howned.name_of_constructor (by simpa using hctor)
  exact hn (hname.symm.trans hother)

end Registry.Built

/-! ### Implementations -/

/-- The functions called `n` of the classes, in order; not every class has one. -/
def Registry.implementations (r : Registry) (n : String) (ks : List ClassId) :
    List MemberFunction :=
  ks.filterMap fun k => (r.get? k).bind (·.function? n)

namespace Registry

variable {o : EngineOptions} {r r' : Registry} {n : String} {k : ClassId} {ks ks' : List ClassId}
  {c : Class} {f : MemberFunction}

theorem implementations_append :
    r.implementations n (ks ++ ks') = r.implementations n ks ++ r.implementations n ks' :=
  List.filterMap_append

theorem implementations_cons_of_some (hc : r.get? k = some c) (hf : c.function? n = some f) :
    r.implementations n (k :: ks) = f :: r.implementations n ks := by
  simp [implementations, hc, hf]

theorem implementations_cons_of_none (hc : r.get? k = some c) (hf : c.function? n = none) :
    r.implementations n (k :: ks) = r.implementations n ks := by
  simp [implementations, hc, hf]

/-- An implementation belongs to the class that has it. -/
theorem Built.exists_of_mem_implementations (hr : r.Built o) (hf : f ∈ r.implementations n ks) :
    f.owner ∈ ks ∧ ∃ c, r.get? f.owner = some c ∧ c.function? n = some f := by
  obtain ⟨k, hk, hbind⟩ := List.mem_filterMap.mp hf
  obtain ⟨c, hc, hcf⟩ := Option.bind_eq_some_iff.mp hbind
  obtain ⟨howner, -⟩ := hr.function?_spec hc hcf
  rw [howner]
  exact ⟨hk, c, hc, hcf⟩

/-- The first implementation and those after it, with the place that its class has. -/
theorem Built.exists_of_head?_implementations (hr : r.Built o)
    (hf : (r.implementations n ks).head? = some f) : ∃ skipped rest,
      ks = skipped ++ f.owner :: rest ∧ r.implementations n ks = f :: r.implementations n rest := by
  induction ks with
  | nil => cases hf
  | cons k ks ih =>
    cases hown : (r.get? k).bind (·.function? n) with
    | some g =>
      obtain ⟨c, hc, hcg⟩ := Option.bind_eq_some_iff.mp hown
      rw [implementations_cons_of_some hc hcg] at hf ⊢
      cases hf
      obtain ⟨howner, -⟩ := hr.function?_spec hc hcg
      exact ⟨[], ks, by rw [howner, List.nil_append], rfl⟩
    | none =>
      have hskip : r.implementations n (k :: ks) = r.implementations n ks :=
        List.filterMap_cons_none hown
      rw [hskip] at hf ⊢
      obtain ⟨skipped, rest, rfl, himpl⟩ := ih hf
      exact ⟨k :: skipped, rest, rfl, himpl⟩

/-- The classes that have implementations stand in the order of the classes. -/
theorem Built.owners_sublist (hr : r.Built o) (n : String) (ks : List ClassId) :
    ((r.implementations n ks).map (·.owner)).Sublist ks := by
  induction ks with
  | nil => exact .slnil
  | cons k ks ih =>
    cases hown : (r.get? k).bind (·.function? n) with
    | some g =>
      obtain ⟨c, hc, hcg⟩ := Option.bind_eq_some_iff.mp hown
      obtain ⟨howner, -⟩ := hr.function?_spec hc hcg
      rw [implementations_cons_of_some hc hcg, List.map_cons, howner]
      exact ih.cons_cons k
    | none =>
      have hskip : r.implementations n (k :: ks) = r.implementations n ks :=
        List.filterMap_cons_none hown
      rw [hskip]
      exact ih.cons k

/-- No implementation comes twice, since no class does. -/
theorem Built.nodup_implementations (hr : r.Built o) (hks : ks.Nodup) :
    (r.implementations n ks).Nodup := by
  refine hks.filterMap fun a b f ha hb => ?_
  obtain ⟨c, hc, hcf⟩ := Option.bind_eq_some_iff.mp ha
  obtain ⟨d, hd, hdf⟩ := Option.bind_eq_some_iff.mp hb
  exact (hr.function?_spec hc hcf).1.symm.trans (hr.function?_spec hd hdf).1

/-- The implementations in registered classes stay as they are. -/
theorem implementations_of_growsTo (hks : ∀ k ∈ ks, (r.get? k).isSome) (hgrows : r.GrowsTo r') :
    r'.implementations n ks = r.implementations n ks := by
  refine List.filterMap_congr fun k hk => ?_
  obtain ⟨c, hc⟩ := Option.isSome_iff_exists.mp (hks k hk)
  rw [hc, hgrows.get? hc]

end Registry

namespace World

variable {w : World} {k : ClassId} {c : Class} {o : ObjectId} {ob : Object}

theorem classAt_eq_ok_iff : w.classAt k = .ok c ↔ w.registry.get? k = some c := by
  unfold classAt
  cases w.registry.get? k <;> simp

theorem objectAt_eq_ok_iff : w.objectAt o = .ok ob ↔ w.objects.get? o = some ob := by
  unfold objectAt
  cases w.objects.get? o <;> simp

theorem get?_eq_none_of_objectAt {e : DispatchError} (h : w.objectAt o = .error e) :
    w.objects.get? o = none := by
  unfold objectAt at h
  cases hob : w.objects.get? o with
  | none => rfl
  | some ob =>
    rw [hob] at h
    cases h

theorem classOf_eq_ok_iff : w.classOf o = .ok c ↔
    ∃ ob, w.objects.get? o = some ob ∧ w.registry.get? ob.cls = some c := by
  unfold classOf
  rw [bind_eq_ok_iff]
  simp only [objectAt_eq_ok_iff, classAt_eq_ok_iff]

/-- Every object has its class, so only a dead object has none. -/
theorem Sound.get?_eq_none_of_classOf (hw : w.Sound) {e : DispatchError}
    (h : w.classOf o = .error e) : w.objects.get? o = none := by
  cases hob : w.objects.get? o with
  | none => rfl
  | some ob =>
    obtain ⟨c, hc⟩ := Option.isSome_iff_exists.mp (hw.registered o ob hob)
    rw [classOf_eq hob hc] at h
    cases h

/-- The class that code is about is registered. -/
theorem exists_get?_of_subjectClass {object : Option ObjectId}
    (h : w.subjectClass k object = .ok c) : ∃ id, w.registry.get? id = some c := by
  cases object with
  | none => exact ⟨k, classAt_eq_ok_iff.mp h⟩
  | some o =>
    obtain ⟨ob, -, hc⟩ := classOf_eq_ok_iff.mp h
    exact ⟨ob.cls, hc⟩

/-- A search that finds a function finds the first implementation. -/
theorem head?_of_firstDefined {n : String} {ks : List ClassId} {f : MemberFunction}
    (h : firstDefined w n ks = .ok (some f)) :
    (w.registry.implementations n ks).head? = some f := by
  induction ks with
  | nil => cases h
  | cons k ks ih =>
    unfold firstDefined at h
    obtain ⟨d, hd, h⟩ := bind_eq_ok_iff.mp h
    have hd := classAt_eq_ok_iff.mp hd
    split at h
    · next g hg =>
      cases h
      rw [Registry.implementations_cons_of_some hd hg, List.head?_cons]
    · next hnone =>
      rw [Registry.implementations_cons_of_none hd hnone]
      exact ih h

/-- Among registered classes a search comes to an end. -/
theorem firstDefined_eq {ks : List ClassId} (hks : ∀ k ∈ ks, (w.registry.get? k).isSome)
    (n : String) : firstDefined w n ks = .ok (w.registry.implementations n ks).head? := by
  induction ks with
  | nil => rfl
  | cons k ks ih =>
    rw [List.forall_mem_cons] at hks
    obtain ⟨d, hd⟩ := Option.isSome_iff_exists.mp hks.1
    unfold firstDefined
    refine bind_eq_ok_iff.mpr ⟨d, classAt_eq hd, ?_⟩
    cases hf : d.function? n with
    | some f =>
      rw [Registry.implementations_cons_of_some hd hf]
      rfl
    | none =>
      rw [Registry.implementations_cons_of_none hd hf]
      exact ih hks.2

theorem exists_of_firstDefined {n : String} {ks : List ClassId} {f : MemberFunction}
    (h : firstDefined w n ks = .ok (some f)) :
    ∃ k ∈ ks, ∃ d, w.registry.get? k = some d ∧ d.function? n = some f := by
  obtain ⟨k, hk, hf⟩ := List.mem_filterMap.mp (List.mem_of_head? (head?_of_firstDefined h))
  exact ⟨k, hk, Option.bind_eq_some_iff.mp hf⟩

/-- **What chaining leads to**, whatever the member was called as: the first
implementation of its simple name after the class whose code is running. -/
theorem chainTarget_eq (hw : w.Sound) {g : Frame} (hg : w.stack.current? = some g)
    (hkind : ¬ (g.kind = .hook ∨ g.kind = .eval)) {m : String} (hm : g.member = some m)
    (hc : w.subjectClass g.scope g.object = .ok c) {before after : List ClassId}
    (hheritage : c.heritage = before ++ g.scope :: after) :
    chainTarget w = .ok (w.registry.implementations (chainName m) after).head? := by
  obtain ⟨id, hid⟩ := exists_get?_of_subjectClass hc
  have hnodup := hw.built.nodup_heritage hid
  rw [hheritage, List.nodup_append] at hnodup
  have hbefore : g.scope ∉ before := fun hmem =>
    hnodup.2.2 _ hmem _ List.mem_cons_self rfl
  have hafter : ∀ k ∈ after, (w.registry.get? k).isSome := by
    intro k hk
    refine hw.built.isSome_of_mem_heritage hid k ?_
    rw [hheritage]
    exact List.mem_append_right _ (List.mem_cons_of_mem _ hk)
  have hwalk : (Walk.start c.heritage).skipPast g.scope =
      (true, ⟨g.scope :: (before.reverse ++ []), after⟩) := by
    rw [hheritage]
    exact Walk.skipAlong_append hbefore [] after
  unfold chainTarget
  simp only [hg, if_neg hkind, hm]
  refine bind_eq_ok_iff.mpr ⟨c, hc, ?_⟩
  rw [hwalk]
  exact firstDefined_eq hafter _

/-- Where chaining leads to a function, the function is found in the classes that come
after the one whose code is running, in a heritage that this class belongs to. -/
theorem exists_search_of_chainTarget {f : MemberFunction} (h : chainTarget w = .ok (some f)) :
    ∃ g m c before after, w.stack.current? = some g ∧ g.kind ≠ .hook ∧ g.kind ≠ .eval ∧
      g.member = some m ∧ w.subjectClass g.scope g.object = .ok c ∧
      c.heritage = before ++ g.scope :: after ∧
      firstDefined w (chainName m) after = .ok (some f) := by
  unfold chainTarget at h
  split at h
  · cases h
  · next g hg =>
    split at h
    · cases h
    · next hkind =>
      rw [not_or] at hkind
      split at h
      · cases h
      · next m hm =>
        obtain ⟨c, hc, h⟩ := bind_eq_ok_iff.mp h
        split at h
        · cases h
        · next walk hwalk =>
          obtain ⟨before, hheritage⟩ := Walk.eq_append_of_skipPast hwalk
          exact ⟨g, m, c, before, walk.ahead, hg, hkind.1, hkind.2, hm, hc, hheritage, h⟩

/-- **What chaining leads to**: the function of the same simple name in a class of
the heritage of the class that the running code is about. -/
theorem exists_of_chainTarget {f : MemberFunction} (h : chainTarget w = .ok (some f)) :
    ∃ g m c k d, w.stack.current? = some g ∧ g.kind ≠ .hook ∧ g.kind ≠ .eval ∧
      g.member = some m ∧ w.subjectClass g.scope g.object = .ok c ∧ k ∈ c.heritage ∧
      w.registry.get? k = some d ∧ d.function? (chainName m) = some f := by
  obtain ⟨g, m, c, before, after, hg, hhook, heval, hm, hc, hheritage, hsearch⟩ :=
    exists_search_of_chainTarget h
  obtain ⟨k, hk, d, hd, hf⟩ := exists_of_firstDefined hsearch
  have hmem : k ∈ c.heritage := by
    rw [hheritage]
    exact List.mem_append_right before (List.mem_cons_of_mem _ hk)
  exact ⟨g, m, c, k, d, hg, hhook, heval, hm, hc, hmem, hd, hf⟩

/-- Code chains along a heritage that the class whose code it is belongs to. -/
theorem scope_mem_of_chainTarget {f : MemberFunction} (h : chainTarget w = .ok (some f)) :
    ∃ g c, w.stack.current? = some g ∧ w.subjectClass g.scope g.object = .ok c ∧
      g.scope ∈ c.heritage := by
  obtain ⟨g, m, c, before, after, hg, -, -, -, hc, hheritage, -⟩ := exists_search_of_chainTarget h
  refine ⟨g, c, hg, hc, ?_⟩
  rw [hheritage]
  exact List.mem_append_right before List.mem_cons_self

/-! ### Variables -/

/-- **What a name of a variable leads running code to**: a variable that the class of the
code may use, in the object of its frame. -/
theorem exists_of_scopedVariable {n : String} {v : Variable}
    (h : w.scopedVariable n = .ok (o, v)) :
    ∃ g c e, w.stack.current? = some g ∧ g.object = some o ∧
      w.registry.get? g.scope = some c ∧ c.resolveVar? n = some e ∧ e.accessible = true ∧
      e.var = v := by
  unfold scopedVariable at h
  split at h
  · cases h
  · next g hg =>
    obtain ⟨c, hc, h⟩ := bind_eq_ok_iff.mp h
    split at h
    · cases h
    · next e he =>
      split at h
      · cases h
      · next haccess =>
        split at h
        · cases h
        · next o' hobject =>
          cases h
          exact ⟨g, c, e, hg, hobject, classAt_eq_ok_iff.mp hc, he, by simpa using haccess, rfl⟩

/-- The components of an object are those of the heritage of its class. -/
theorem exists_of_component {n : String} {m : Component} (h : w.component o n = .ok m) :
    ∃ ob c, w.objects.get? o = some ob ∧ w.registry.get? ob.cls = some c ∧
      ∃ k ∈ c.heritage, ∃ d, w.registry.get? k = some d ∧ m ∈ d.components.toList := by
  have hfirst {ks : List ClassId} (h : firstComponent w n ks = .ok m) :
      ∃ k ∈ ks, ∃ d, w.registry.get? k = some d ∧ m ∈ d.components.toList := by
    induction ks with
    | nil => cases h
    | cons k ks ih =>
      unfold firstComponent at h
      obtain ⟨d, hd, h⟩ := bind_eq_ok_iff.mp h
      split at h
      · next hm =>
        cases h
        exact ⟨k, List.mem_cons_self, d, classAt_eq_ok_iff.mp hd,
          MemberTable.mem_toList_of_get? hm⟩
      · obtain ⟨k', hk', hfound⟩ := ih h
        exact ⟨k', List.mem_cons_of_mem k hk', hfound⟩
  obtain ⟨c, hc, h⟩ := bind_eq_ok_iff.mp h
  obtain ⟨ob, hob, hc⟩ := classOf_eq_ok_iff.mp hc
  exact ⟨ob, c, hob, hc, hfirst h⟩

end World

/-! ### Options -/

/-- An option means a public variable of the class. -/
theorem exists_of_findOption {c : Class} {option : String} {e : VarLookup}
    (h : findOption c option = .ok e) :
    ∃ n, c.resolveVar? n = some e ∧ e.var.isPublic = true := by
  unfold findOption at h
  split at h
  · cases h
  · next entry hentry =>
    obtain ⟨n, -, hn⟩ := Option.bind_eq_some_iff.mp hentry
    split at h
    · next hpublic =>
      cases h
      exact ⟨n, hn, hpublic⟩
    · cases h

/-- Options are read and set on a live object, in its class. -/
theorem exists_of_optionScope {w : World} {fault : UsageFault} {o : ObjectId} {c : Class}
    (h : optionScope w fault = .ok (o, c)) :
    ∃ ob, w.objects.get? o = some ob ∧ w.registry.get? ob.cls = some c := by
  unfold optionScope at h
  obtain ⟨⟨k, object⟩, -, h⟩ := bind_eq_ok_iff.mp h
  cases object with
  | none => cases h
  | some o' =>
    obtain ⟨c', hc', h⟩ := bind_eq_ok_iff.mp h
    cases h
    exact World.classOf_eq_ok_iff.mp hc'

end ObjectDispatch
