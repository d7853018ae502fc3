import ObjectDispatch.Proofs.Course

/-!
# The code that runs destructors

A destructor runs because its object is deleted, or because another destructor of that
object chains to it.  No other code can start one, provided that names are in order:
that the components of class names and the names of functions are words, and that what
is called `destructor` was declared as a destructor.  A name that means a function is
then never chained by that name, and chaining by it leads to destructors only.

## Main definitions

* `Class.Regular`, `Registry.Regular` — names are in order.
* `Frame.ChainsToDestructors` — a frame whose member is chained by the name
  `destructor`.
* `Event.TouchesDestructors` — an event that changes which destructors count as begun.
* `Task.Apart` — a task that has nothing to do with the destructors of an object.

## Main results

* `Name.simple_of_mem_spellings` — all spellings of a name have the same simple name.
* `World.Available.apart` — **what running code takes up is apart from the destructors
  of an object, unless a destructor of that object chains.**
* `Task.Begins.apart` — so is what such a task goes on with, unless it is a deletion.
-/

namespace ObjectDispatch

/-! ### Simple names -/

namespace Name

theorem afterLastMark?_eq_none {cs : List Char} (h : ':' ∉ cs) : afterLastMark? cs = none := by
  induction cs with
  | nil => rfl
  | cons c cs ih =>
    rw [List.mem_cons, not_or] at h
    rw [afterLastMark?, ih h.2]
    rintro _ rfl
    exact absurd rfl h.1

theorem afterLastMark?_append (cs : List Char) {w : List Char} (hw : ':' ∉ w) :
    afterLastMark? (cs ++ ':' :: ':' :: w) = some w := by
  induction cs with
  | nil =>
    -- the second colon begins no mark
    have hsecond : afterLastMark? (':' :: w) = none := by
      rw [afterLastMark?, afterLastMark?_eq_none hw]
      rintro _ - rfl
      exact hw List.mem_cons_self
    rw [List.nil_append, afterLastMark?, hsecond]
  | cons c cs ih =>
    unfold afterLastMark?
    rw [List.cons_append]
    simp only [ih]

theorem simple_of_not_mem {n : String} (hn : ':' ∉ n.toList) : simple n = n := by
  simp [simple, afterLastMark?_eq_none hn]

theorem simple_append_mark (pre : String) {w : String} (hw : ':' ∉ w.toList) :
    simple (pre ++ "::" ++ w) = w := by
  have htext : (pre ++ "::" ++ w).toList = pre.toList ++ ':' :: ':' :: w.toList := by
    simp [String.toList_append]
  simp [simple, htext, afterLastMark?_append _ hw]

theorem simple_intercalate (ps : List String) {w : String} (hw : ':' ∉ w.toList) :
    simple ("::".intercalate (ps ++ [w])) = w := by
  by_cases hps : ps = []
  · simp [hps, simple_of_not_mem hw]
  · rw [String.intercalate_append_of_ne_nil hps (by simp), String.intercalate_singleton]
    exact simple_append_mark _ hw

/-- **All spellings of a name have the same simple name**, the last of its
components. -/
theorem simple_of_mem_spellings {n m w : String} {ps : List (List Char)}
    (hps : ∀ p ∈ ps, IsWord p) (hw : IsWord w.toList) (hn : n.toList = marked (ps ++ [w.toList]))
    (hm : m ∈ spellings n) : simple m = w := by
  have hcomponents : components n = ps.map String.ofList ++ [w] := by
    have hwords : ∀ p ∈ ps ++ [w.toList], IsWord p := by
      simpa [or_imp, forall_and] using ⟨hps, hw⟩
    rw [components_of_marked hwords hn]
    simp
  unfold spellings at hm
  rw [hcomponents, List.mem_append, List.mem_singleton] at hm
  rcases hm with hm | rfl
  · obtain ⟨s, hs, rfl⟩ := List.mem_map.mp hm
    obtain ⟨hne, hsuffix⟩ := mem_suffixes_iff.mp hs
    rcases List.suffix_concat_iff.mp hsuffix with rfl | ⟨t, rfl, -⟩
    · exact absurd rfl hne
    · exact simple_intercalate t hw.2
  · -- the anchored name has an empty component in front
    have hanchored : "::" ++ "::".intercalate (ps.map String.ofList ++ [w]) =
        "::".intercalate (("" :: ps.map String.ofList) ++ [w]) := by
      rw [List.cons_append, String.intercalate_cons_of_ne_nil (by simp)]
      simp
    rw [hanchored]
    exact simple_intercalate _ hw.2

end Name

/-! ### Names in order -/

/-- The components of the name of the class and the names of its functions are words,
and what it calls `destructor` was declared as a destructor. -/
structure Class.Regular (c : Class) : Prop where
  components : ∀ p ∈ (Name.pieces c.fullName.toList).tail, Name.IsWord p
  functionNames : ∀ f ∈ c.functions.toList, Name.IsWord f.name.toList
  destructors : ∀ f ∈ c.functions.toList, f.name = destructorName → f.flags.isDestructor = true

instance (c : Class) : Decidable c.Regular :=
  decidable_of_iff
    ((∀ p ∈ (Name.pieces c.fullName.toList).tail, Name.IsWord p) ∧
      (∀ f ∈ c.functions.toList, Name.IsWord f.name.toList) ∧
      ∀ f ∈ c.functions.toList, f.name = destructorName → f.flags.isDestructor = true)
    ⟨fun h => ⟨h.1, h.2.1, h.2.2⟩, fun h => ⟨h.components, h.functionNames, h.destructors⟩⟩

/-- All of the classes have their names in order. -/
def Registry.Regular (r : Registry) : Prop := ∀ c ∈ r.classes, c.Regular

instance (r : Registry) : Decidable r.Regular :=
  inferInstanceAs (Decidable (∀ c ∈ r.classes, c.Regular))

theorem Registry.Regular.of_growsTo {r r' : Registry} (h : r'.Regular) (hgrows : r.GrowsTo r') :
    r.Regular :=
  fun c hc => h c (List.IsPrefix.subset hgrows hc)

/-- The simple name of the full name of a function is its name, where that is a word. -/
theorem MemberFunction.OwnedBy.simple_fullName {f : MemberFunction} {k : ClassId} {cls : String}
    (hf : f.OwnedBy k cls) (hword : Name.IsWord f.name.toList) :
    Name.simple f.fullName = f.name := by
  rw [hf.fullName_eq]
  exact Name.simple_append_mark _ hword.2

namespace Registry.Built

variable {opts : EngineOptions} {r : Registry} {k : ClassId} {c : Class} {n : String}
  {f : MemberFunction}

/-- The full name of a function taken apart, where the name of its class is made of words. -/
theorem exists_marked_fullName (hr : r.Built opts) (hc : r.get? k = some c)
    (hcomponents : ∀ p ∈ (Name.pieces c.fullName.toList).tail, Name.IsWord p)
    (hf : f ∈ c.functions.toList) : ∃ ps, (∀ p ∈ ps, Name.IsWord p) ∧
      f.fullName.toList = Name.marked (ps ++ [f.name.toList]) := by
  obtain ⟨_, -, -, hmade, -⟩ := hr.exists_madeIn hc
  obtain ⟨ps, hps, hname⟩ := Name.exists_words hmade.anchored hcomponents
  refine ⟨ps, hps, ?_⟩
  rw [((hr.formed hc).functions.all f hf).fullName_eq]
  exact Class.toList_memberName hname

/-- All spellings of a function have its name as their simple name, where names are
words. -/
theorem simple_of_mem_spellings (hr : r.Built opts) (hc : r.get? k = some c)
    (hcomponents : ∀ p ∈ (Name.pieces c.fullName.toList).tail, Name.IsWord p)
    (hf : f ∈ c.functions.toList) (hword : Name.IsWord f.name.toList)
    (hn : n ∈ Name.spellings f.fullName) : Name.simple n = f.name := by
  obtain ⟨ps, hps, hfull⟩ := hr.exists_marked_fullName hc hcomponents hf
  exact Name.simple_of_mem_spellings hps hword hfull hn

theorem simple_of_resolveFunction? (hr : r.Built opts) (hregular : r.Regular)
    (hc : r.get? k = some c) (hf : c.resolveFunction? n = some f) : Name.simple n = f.name := by
  obtain ⟨-, hspelled, _, -, d, hd, hfd⟩ := hr.exists_of_resolveFunction? hc hf
  have hnames := hregular d (mem_of_get? hd)
  exact hr.simple_of_mem_spellings hd hnames.components hfd
    (hnames.functionNames f hfd) hspelled

/-- A name that means a function is not chained by the name `destructor`. -/
theorem chainName_ne_of_resolveFunction? (hr : r.Built opts) (hregular : r.Regular)
    (hc : r.get? k = some c) (hf : c.resolveFunction? n = some f) :
    chainName n ≠ destructorName := by
  obtain ⟨-, hdtor, -⟩ := hr.resolveFunction?_spec hc hf
  obtain ⟨-, -, _, -, d, hd, hfd⟩ := hr.exists_of_resolveFunction? hc hf
  unfold chainName
  rw [hr.simple_of_resolveFunction? hregular hc hf]
  split
  · decide
  · intro hname
    have hdeclared := (hregular d (mem_of_get? hd)).destructors f hfd hname
    rw [hdtor] at hdeclared
    cases hdeclared

/-- A function that is chained by the name `destructor` is a destructor. -/
theorem isDestructor_of_chainName (hr : r.Built opts) (hregular : r.Regular)
    (hc : r.get? k = some c) (hf : c.function? n = some f)
    (hchain : chainName f.fullName = destructorName) : f.flags.isDestructor = true := by
  have hmem := MemberTable.mem_toList_of_get? hf
  have hword := (hregular c (mem_of_get? hc)).functionNames f hmem
  obtain ⟨-, -, howned⟩ := hr.function?_spec hc hf
  unfold chainName at hchain
  rw [howned.simple_fullName hword] at hchain
  split at hchain
  · exact absurd hchain (by decide)
  · exact (hregular c (mem_of_get? hc)).destructors f hmem hchain

/-- What is called `destructor` is a destructor and nothing else. -/
theorem flags_of_destructor (hr : r.Built opts) (hregular : r.Regular) (hc : r.get? k = some c)
    (hf : c.function? destructorName = some f) : f.flags = { isDestructor := true } := by
  obtain ⟨-, hname, howned⟩ := hr.function?_spec hc hf
  exact howned.flags_of_destructor
    ((hregular c (mem_of_get? hc)).destructors f (MemberTable.mem_toList_of_get? hf) hname)

/-- A constructor is no destructor. -/
theorem isDestructor_of_constructor (hr : r.Built opts) (hc : r.get? k = some c)
    (hf : c.function? constructorName = some f) : f.flags.isDestructor = false := by
  obtain ⟨-, hname, howned⟩ := hr.function?_spec hc hf
  by_contra hdtor
  have hother := howned.name_of_destructor (by simpa using hdtor)
  rw [hname] at hother
  exact absurd hother (by decide)

end Registry.Built

/-! ### Frames, events and tasks -/

/-- The member of the frame is chained by the name `destructor`. -/
def Frame.ChainsToDestructors (f : Frame) : Prop :=
  ∃ m, f.member = some m ∧ chainName m = destructorName

theorem MemberFunction.chainsToDestructors_callFrame {f : MemberFunction}
    {object : Option ObjectId} {n : String} :
    (f.callFrame object n).ChainsToDestructors ↔ chainName n = destructorName := by
  simp [Frame.ChainsToDestructors, MemberFunction.callFrame]

theorem MemberFunction.not_chainsToDestructors_initializerFrame (f : MemberFunction)
    (o : ObjectId) : ¬ (f.initializerFrame o).ChainsToDestructors := by
  rintro ⟨m, hm, hchain⟩
  cases hm
  exact absurd hchain (by decide)

theorem Variable.not_chainsToDestructors_hookFrame (v : Variable) (o : ObjectId) :
    ¬ (v.hookFrame o).ChainsToDestructors := by
  rintro ⟨m, hm, -⟩
  cases hm

/-- The destructor whose body runs. -/
def Activity.destructor? : Activity → Option MemberFunction
  | .body f => if f.flags.isDestructor then some f else none
  | _ => none

theorem Activity.destructor?_body_eq_none {f : MemberFunction}
    (hf : f.flags.isDestructor = false) : (Activity.body f).destructor? = none := by
  simp [Activity.destructor?, hf]

/-- The event changes which destructors count as begun for the object. -/
def Event.TouchesDestructors (o : ObjectId) : Event → Prop
  | .destructorMarked o' _ | .destructorsForgotten o' => o' = o
  | _ => False

/-- The task has nothing to do with the destructors of the object, whatever else it
does; a deletion of the object, which is yet to begin, is left aside. -/
def Task.Apart (o : ObjectId) : Task → Prop
  | .frame f a => f.object = some o → ¬ f.ChainsToDestructors ∧ a.destructor? = none
  | .building _ t | .chain t => t.Apart o
  | .seq t next => t.Apart o ∧ next.Apart o
  | .guarded t u => t.Apart o ∧ u ≠ .forget o
  | .destruct o' _ | .destructOnward o' _ => o' ≠ o
  | .code => False
  | .done | .create _ _ | .construct _ _ | .constructor _ _ | .delete _ | .remove _
  | .assign _ _ _ => True

section

variable {o : ObjectId} {w : World} {t t' : Task} {evs : List Event}

theorem Task.apart_all {ts : List Task} (h : ∀ t ∈ ts, t.Apart o) : (Task.all ts).Apart o :=
  Task.all_of_forall trivial And.intro h

theorem Task.apart_construct (o' : ObjectId) (ks : List ClassId) :
    (Task.all (ks.map (.construct o'))).Apart o :=
  Task.apart_all (by simp [Task.Apart])

theorem MemberFunction.apart_initialization (f : MemberFunction) (o' : ObjectId) :
    (f.initialization o').Apart o := by
  unfold MemberFunction.initialization
  cases f.initializer with
  | none => trivial
  | some code => exact fun _ => ⟨f.not_chainsToDestructors_initializerFrame o', rfl⟩

theorem Variable.apart_hooking (v : Variable) (o' : ObjectId) (previous : Option Value) :
    (v.hooking o' previous).Apart o := by
  unfold Variable.hooking
  cases v.hook with
  | none => trivial
  | some code => exact ⟨⟨fun _ => ⟨v.not_chainsToDestructors_hookFrame o', rfl⟩, nofun⟩, trivial⟩

/-- What chains to a destructor is chained by the name `destructor`. -/
theorem World.chainsToDestructors_of_chainTarget (hw : w.Sound) {g : Frame} {f : MemberFunction}
    (hg : w.stack.current? = some g) (hf : chainTarget w = .ok (some f))
    (hdtor : f.flags.isDestructor = true) : g.ChainsToDestructors := by
  obtain ⟨g', m, -, k, d, hg', -, -, hm, -, -, hd, hfd⟩ := exists_of_chainTarget hf
  cases hg.symm.trans hg'
  obtain ⟨-, hname, howned⟩ := hw.built.function?_spec hd hfd
  refine ⟨m, hm, ?_⟩
  rw [← hname]
  exact howned.name_of_destructor hdtor

/-- **What running code takes up is apart from the destructors of an object**, unless a
destructor of that object chains. -/
theorem World.Available.apart (ht : w.Available t) (hw : w.Sound) (hregular : w.registry.Regular)
    (o : ObjectId) :
    t.Apart o ∨ ∃ g f, t = .chain (.destructOnward o f) ∧ w.stack.current? = some g ∧
      g.object = some o ∧ g.ChainsToDestructors ∧ chainTarget w = .ok (some f) ∧
      f.flags.isDestructor = true := by
  cases ht with
  | method _ hc hf _ =>
    obtain ⟨-, hdtor, -⟩ := hw.built.resolveFunction?_spec hc hf
    refine Or.inl fun _ => ⟨?_, Activity.destructor?_body_eq_none hdtor⟩
    rw [MemberFunction.chainsToDestructors_callFrame]
    exact hw.built.chainName_ne_of_resolveFunction? hregular hc hf
  | procedure hc hf _ _ => exact Or.inl nofun
  | scope => exact Or.inl fun _ => ⟨nofun, rfl⟩
  | @onward g f hg hf hctor hdtor =>
    refine Or.inl fun hobject => ?_
    have hnone : f.flags.isDestructor = false := by
      refine hdtor.resolve_right fun hnone => ?_
      simp [MemberFunction.callFrame, hnone] at hobject
    refine ⟨fun hchains => ?_, Activity.destructor?_body_eq_none hnone⟩
    rw [MemberFunction.chainsToDestructors_callFrame] at hchains
    obtain ⟨-, m, -, k, d, -, -, -, -, -, -, hd, hfd⟩ := exists_of_chainTarget hf
    rw [hw.built.isDestructor_of_chainName hregular hd hfd hchains] at hnone
    cases hnone
  | @destructOnward g o' f hg hf _ hdtor ho =>
    by_cases hsame : o' = o
    · subst hsame
      exact Or.inr ⟨g, f, rfl, hg, ho, chainsToDestructors_of_chainTarget hw hg hf hdtor, hf, hdtor⟩
    · exact Or.inl hsame
  | constructOnward | create | delete | assign => exact Or.inl trivial

/-- **What a task goes on with that is apart from the destructors of an object** is so
too, unless the task is a deletion of it. -/
theorem Task.Begins.apart (h : t.Begins w evs t') (hw : w.Sound) (ht : t.Apart o) :
    t = .delete o ∨ t'.Apart o ∧ ∀ e ∈ evs, ¬ e.TouchesDestructors o := by
  cases h with
  | create =>
    refine Or.inr ⟨⟨⟨trivial, by simp⟩, trivial⟩, fun e he => ?_⟩
    rcases List.mem_cons.mp he with rfl | he
    · exact fun h => h.elim
    · obtain ⟨_, _, rfl⟩ := Registry.exists_of_mem_initialValues he
      exact fun h => h.elim
  | constructed | constructOwn | constructorBegun | destructNone | destructed
  | destructorBegun => exact Or.inr ⟨trivial, by simp⟩
  | constructSupers =>
    exact Or.inr ⟨Task.apart_construct _ _, by simp [Event.TouchesDestructors]⟩
  | @constructor o' f ob c _ _ hc hf =>
    have hbody : (Task.frame (f.callFrame (some o') constructorName) (.body f)).Apart o := by
      refine fun _ => ⟨?_, Activity.destructor?_body_eq_none
        (hw.built.isDestructor_of_constructor hc hf)⟩
      rw [MemberFunction.chainsToDestructors_callFrame]
      decide
    exact Or.inr ⟨⟨f.apart_initialization o', Task.apart_construct o' c.supers, hbody⟩,
      by simp [Event.TouchesDestructors]⟩
  | @delete o' ob c =>
    by_cases hsame : o' = o
    · exact Or.inl (by rw [hsame])
    · refine Or.inr ⟨⟨Task.apart_all ?_, trivial⟩, by simp [Event.TouchesDestructors]⟩
      simpa [Task.Apart] using fun _ _ => hsame
  | @destruct o' k ob c f =>
    have hother : o' ≠ o := ht
    refine Or.inr ⟨⟨fun hobject => ?_, by simpa using hother⟩, ?_⟩
    · exact absurd (Option.some.inj hobject) hother
    · simpa [Event.TouchesDestructors] using hother
  | @destructOnward o' f =>
    have hother : o' ≠ o := ht
    refine Or.inr ⟨fun hobject => ?_, by simpa [Event.TouchesDestructors] using hother⟩
    have hobject : (if f.flags.isCommon then none else some o') = some o := hobject
    split at hobject
    · cases hobject
    · exact absurd (Option.some.inj hobject) hother
  | chain => exact Or.inr ⟨ht, by simp [Event.TouchesDestructors]⟩
  | remove =>
    refine Or.inr ⟨trivial, fun e he => ?_⟩
    rw [Undo.eq_event_of_mem he]
    exact id
  | @assign o' v x ob => exact Or.inr ⟨v.apart_hooking o' _, by simp [Event.TouchesDestructors]⟩

end

end ObjectDispatch
