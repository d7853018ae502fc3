import ObjectDispatch.Proofs.FullNames
import ObjectDispatch.Proofs.OptionReports

/-!
# Members that are listed

`info function` and `info variable` list the full names of the members of a heritage, and
describe one member that is asked for by name.  The lists are read from the tables of the
classes, and what is asked for is looked up among the names that mean something in the
class of the object.

Where names are made of words, the names in a list are distinct, and each variable and
each function that has a name in the class is described under the name by which it is
listed.  Constructors and destructors are listed as well.  They have no name in the class,
and the search that is made for them instead goes by simple names.  So asked for by full
name they are not found.

## Main definitions

* `Registry.WordNamed` — the functions of all classes are named by words.
* `Run.Refuses` — a run that ends with an error and changes nothing.

## Main results

* `Registry.Built.nodup_memberNames` — **no full name is listed twice.**
* `World.describeFunction_fullName` — what is answered to a listed name.
* `listings_of_info` — **which of the listed members are described.**
-/

namespace ObjectDispatch

variable {o : EngineOptions} {r : Registry} {id k : ClassId} {c d : Class}

/-- The functions of all classes are named by words. -/
def Registry.WordNamed (r : Registry) : Prop := ∀ id c, r.get? id = some c → c.WordNamed

theorem Registry.wordNamed_of_forall (h : ∀ c ∈ r.classes, c.WordNamed) : r.WordNamed :=
  fun _ _ hc => h _ (Registry.mem_of_get? hc)

/-! ### Full names along a heritage -/

namespace Registry.Built

/-- **No full name is listed twice.**  The members are of one kind, and the classes have
those in their tables. -/
theorem nodup_memberNames {α : Type} {name fullName : α → String} {P : Class → α → Prop}
    (hr : r.Built o) (hc : r.get? id = some c) (table : Class → MemberTable α)
    (hholds : ∀ j e, r.get? j = some e → (table e).Holds name (P e))
    (hfull : ∀ e a, P e a → fullName a = e.memberName (name a))
    (hcomponents : ∀ j e, r.get? j = some e →
      ∀ p ∈ (Name.pieces e.fullName.toList).tail, Name.IsWord p)
    (hwords : ∀ j e, r.get? j = some e → ∀ a ∈ (table e).toList, Name.IsWord (name a).toList) :
    (((c.heritage.filterMap r.get?).flatMap fun e => (table e).toList).map fullName).Nodup := by
  have hname {j k : ClassId} {e d : Class} (he : r.get? j = some e) (hd : r.get? k = some d)
      {a b : α} (ha : a ∈ (table e).toList) (hb : b ∈ (table d).toList)
      (hab : fullName a = fullName b) : j = k ∧ name a = name b := by
    rw [hfull e a ((hholds j e he).all a ha), hfull d b ((hholds k d hd).all b hb)] at hab
    exact (hr.memberName_eq_iff he hd (hcomponents j e he) (hcomponents k d hd)
      (hwords j e he a ha) (hwords k d hd b hb)).mp hab
  rw [List.map_flatMap, List.nodup_flatMap]
  constructor
  · -- within one class the simple names are distinct
    intro e he
    obtain ⟨j, -, he⟩ := List.mem_filterMap.mp he
    have hnodup := (hholds j e he).nodup
    refine List.Nodup.map_on (fun a ha b hb hab => ?_) hnodup.of_map
    exact List.inj_on_of_nodup_map hnodup ha hb (hname he he ha hb hab).2
  · -- the full names tell the classes apart
    rw [List.pairwise_filterMap]
    refine (hr.nodup_heritage hc).imp fun {j k} hjk e he d hd n hn hn' => ?_
    obtain ⟨a, ha, rfl⟩ := List.mem_map.mp hn
    obtain ⟨b, hb, hab⟩ := List.mem_map.mp hn'
    exact hjk (hname he hd ha hb hab.symm).1

theorem nodup_functionFullNames (hr : r.Built o) (hwords : r.WordNamed)
    (hc : r.get? id = some c) : ((r.functionsOf c).map (·.fullName)).Nodup :=
  hr.nodup_memberNames hc Class.functions (fun _ _ he => (hr.formed he).functions)
    (fun _ _ hf => hf.fullName_eq) (fun j e he => (hwords j e he).components)
    fun j e he => (hwords j e he).functionNames

theorem nodup_variableFullNames (hr : r.Built o) (hnames : r.WellNamed)
    (hc : r.get? id = some c) : ((r.variablesOf c).map (·.fullName)).Nodup :=
  hr.nodup_memberNames hc Class.ownVariables (fun _ _ he => (hr.formed he).ownVariables)
    (fun _ _ hv => hv.fullName_eq) (fun j e he => (hnames j e he).components)
    fun j e he => (hnames j e he).varNames

end Registry.Built

/-! ### Answers -/

namespace World

variable {w : World} {object : ObjectId}

/-- The members of a heritage that the classes have in `members`, by name. -/
theorem listMembers_eq {α : Type} (hr : w.registry.Built o) (hc : w.registry.get? id = some c)
    (members : Class → List α) (name : α → String) :
    w.listMembers c (fun k => (members k).map name) =
      .ok (.list (((c.heritage.filterMap w.registry.get?).flatMap members).map
        fun a => .str (name a))) := by
  unfold listMembers
  rw [classesAt_eq fun k hk => hr.exists_get?_of_mem_heritage hc hk, List.map_flatMap]
  show Except.ok (Value.list _) = _
  simp only [List.map_map, Function.comp_def]

/-- **What is answered to the full name of a function**: its description, unless the
function takes part in the lifecycle. -/
theorem describeFunction_fullName (hr : w.registry.Built o) (hwords : w.registry.WordNamed)
    (hc : w.registry.get? id = some c) {f : MemberFunction} (hf : f ∈ w.registry.functionsOf c) :
    w.describeFunction c f.fullName =
      if f.isLifecycle then .error (.noSuchMember f.fullName c.fullName)
      else .ok f.description := by
  obtain ⟨k, hk, d, hd, hfd⟩ := Registry.mem_functionsOf_iff.mp hf
  have hformed := (hr.formed hd).functions
  have hfull : f.fullName = d.memberName f.name := (hformed.all f hfd).fullName_eq
  have hown : d.function? f.name = some f := hformed.get?_eq_some_iff.mpr ⟨hfd, rfl⟩
  have hmeans : c.resolveFunction? f.fullName = if f.isLifecycle then none else some f := by
    rw [hfull, Class.resolveFunction?_memberName hr hc (fun j _ e he => hwords j e he) hk hd
      ((hwords k d hd).functionNames f hfd), hown]
    cases hlifecycle : f.isLifecycle <;> simp [hlifecycle]
  -- no function has a simple name with a mark in it
  have hnone : functionAmong? f.fullName (w.knownClasses c.heritage) = none := by
    refine List.findSome?_eq_none_iff.mpr fun e he => ?_
    obtain ⟨j, -, he⟩ := List.mem_filterMap.mp he
    by_contra hsome
    obtain ⟨g, hg⟩ := Option.ne_none_iff_exists'.mp hsome
    obtain ⟨hge, hname⟩ := (hr.formed he).functions.get?_eq_some_iff.mp hg
    have hcolon : ':' ∈ g.name.toList := by
      rw [hname, hfull]
      simp [Class.memberName, Name.member, String.toList_append]
    exact ((hwords j e he).functionNames g hge).2 hcolon
  unfold describeFunction
  rw [hmeans, hnone]
  cases f.isLifecycle <;> rfl

/-- **What is answered to the full name of a variable**: its description. -/
theorem describeVariable_fullName (hr : w.registry.Built o) (hnames : w.registry.WellNamed)
    (hc : w.registry.get? id = some c) {ob : Object} (hob : w.objects.get? object = some ob)
    {v : Variable} (hv : v ∈ w.registry.variablesOf c) :
    w.describeVariable c (some object) v.fullName =
      .ok (.list [.str v.protection.word, .str v.fullName, w.optionDefault v,
        w.optionValue ob v]) := by
  obtain ⟨e, he, rfl⟩ := Option.map_eq_some_iff.mp (Class.means_fullName hr hnames hc hv)
  exact describeVariable_eq hob he

end World

/-- The run ends with the error `e`, and the world is as before. -/
def Run.Refuses {α : Type} (r : Run α) (s : State) (e : DispatchError) : Prop :=
  ∃ t, r s = (.failure e, t) ∧ t.world = s.world

/-- A call of `info` ends as the question about the class of the object is answered, and
the world is as before. -/
theorem exists_invoke_info_eq {s : State} (hr : s.world.registry.Built o) {object : ObjectId}
    {ob : Object} (hob : s.world.objects.get? object = some ob)
    (hc : s.world.registry.get? ob.cls = some c) (hinfo : c.HasBuiltin .info)
    (hroom : s.world.stack.depth < s.world.stack.limit) (loads frames : Nat) (topic : String)
    (more : List Value) :
    ∃ t, invoke (enterFrame (runCode loads (frames + 1))) object "info" (.str topic :: more) s =
        Run.answer (s.world.infoTopic c (some object) topic more) t ∧ t.world = s.world := by
  obtain ⟨f, hf, hbody⟩ := hinfo.exists_body_eq
  let entered := s.after (.entered (builtinFrame f object .info) (.body f))
  have hquestion : entered.world.info (.str topic :: more) =
      s.world.infoTopic c (some object) topic more := by
    show (do
      let c ← s.world.classOf object
      s.world.infoTopic c (some object) topic more) = _
    rw [World.classOf_eq hob hc]
    rfl
  have hcode : runCode loads (frames + 1) (Activity.body f).code (.str topic :: more) =
      Run.look (·.info (.str topic :: more)) := by
    show runCode loads (frames + 1) f.body _ = _
    rw [hbody]
    rfl
  have hcall := invoke_builtin_eq (b := .info) hob hc hf (hr.of_body_eq_builtin hc hf hbody)
    (enterFrame (runCode loads (frames + 1))) (.str topic :: more)
  rw [enterFrame_apply, if_neg (by omega), hcode, Run.look_apply, hquestion] at hcall
  -- the frame that was entered has been left, so the world is as before
  cases hanswer : s.world.infoTopic c (some object) topic more with
  | ok x =>
    rw [hanswer] at hcall
    exact ⟨entered.after (.left none), hcall, rfl⟩
  | error e =>
    rw [hanswer] at hcall
    exact ⟨entered.after (.left (some e)), hcall, rfl⟩

/-- **Which of the listed members are described**, for every live object, at any moment of
any session in which classes and members are named by words.

`info function` lists the full names of all functions of the heritage and `info variable`
those of all variables, none of them twice.  A variable that is asked for by its listed
name is described.  So is a function that is no constructor and no destructor; those are
answered with the error for names that mean nothing. -/
theorem listings_of_info {o : EngineOptions} {w : World} (hw : Session.Reachable o w)
    (hnames : w.registry.WellNamed) (hwords : w.registry.WordNamed) {object : ObjectId}
    {ob : Object} {c : Class} (hob : w.objects.get? object = some ob)
    (hc : w.registry.get? ob.cls = some c) (hinfo : c.HasBuiltin .info)
    (hroom : w.stack.depth < w.stack.limit) (loads frames : Nat) (journal : List Event) :
    let ask := fun args : List String =>
      invoke (enterFrame (runCode loads (frames + 1))) object "info" (args.map .str)
    let s : State := { world := w, journal := journal }
    let functions := w.registry.functionsOf c
    let vars := w.registry.variablesOf c
    ((functions.map (·.fullName)).Nodup ∧
      (ask ["function"]).Answers s (.list (functions.map fun f => .str f.fullName)) ∧
      (∀ f ∈ functions, f.isLifecycle = false →
        (ask ["function", f.fullName]).Answers s f.description) ∧
      ∀ f ∈ functions, f.isLifecycle = true →
        (ask ["function", f.fullName]).Refuses s (.noSuchMember f.fullName c.fullName)) ∧
    (vars.map (·.fullName)).Nodup ∧
      (ask ["variable"]).Answers s (.list (vars.map fun v => .str v.fullName)) ∧
      ∀ v ∈ vars, (ask ["variable", v.fullName]).Answers s
        (.list [.str v.protection.word, .str v.fullName, w.optionDefault v,
          w.optionValue ob v]) := by
  intro ask s functions vars
  have hr := hw.built
  have hask (topic : String) (more : List String) := exists_invoke_info_eq (s := s) hr hob hc
    hinfo hroom loads frames topic (more.map .str)
  have hlist {topic : String} {α : Type} (members : Class → List α) (name : α → String)
      (htopic : w.infoTopic c (some object) topic [] =
        w.listMembers c fun k => (members k).map name) :
      (ask [topic]).Answers s (.list (((c.heritage.filterMap w.registry.get?).flatMap
        members).map fun a => .str (name a))) := by
    obtain ⟨t, ht, hworld⟩ := hask topic []
    rw [List.map_nil, htopic, World.listMembers_eq hr hc] at ht
    exact ⟨t, ht, hworld⟩
  refine ⟨⟨hr.nodup_functionFullNames hwords hc, hlist (·.functions.toList) _ rfl,
    fun f hf hplain => ?_, fun f hf hlifecycle => ?_⟩,
    hr.nodup_variableFullNames hnames hc, hlist (·.ownVariables.toList) _ rfl, fun v hv => ?_⟩
  · obtain ⟨t, ht, hworld⟩ := hask "function" [f.fullName]
    have hanswer := World.describeFunction_fullName hr hwords hc hf
    rw [hplain, if_neg Bool.false_ne_true] at hanswer
    exact ⟨t, ht.trans (congrArg (Run.answer · t) hanswer), hworld⟩
  · obtain ⟨t, ht, hworld⟩ := hask "function" [f.fullName]
    have hanswer := World.describeFunction_fullName hr hwords hc hf
    rw [hlifecycle, if_pos rfl] at hanswer
    exact ⟨t, ht.trans (congrArg (Run.answer · t) hanswer), hworld⟩
  · obtain ⟨t, ht, hworld⟩ := hask "variable" [v.fullName]
    have hanswer := World.describeVariable_fullName hr hnames hc hob hv
    exact ⟨t, ht.trans (congrArg (Run.answer · t) hanswer), hworld⟩

/-- Defines a class and one that inherits from it, with members of the same names, and
creates an object of the second. -/
def hatches : Expr :=
  .sequence [
    .defineClass
      { name := "Gate"
        members := [.var "width" .pub (some (.str "1")), .method "lift" .pub (.const (.str "gate")),
          .ctor none (.const (.str ""))] },
    .defineClass
      { name := "Hatch", inherits := ["Gate"]
        members := [.var "width" .priv none, .method "lift" .prot (.const (.str "hatch")),
          .dtor (.const (.str ""))] },
    .create (some (.const (.str "Hatch"))) (.const (.str "h")) []]

/-- The world after the two classes are defined and the object created. -/
def hatchesWorld : World := (Session.step 0 (World.initial {}) hatches).2.world

-- the overridden function is listed beside the one that overrides it
example : (hatchesWorld.registry.get? ⟨1⟩).map (fun c =>
      (hatchesWorld.registry.functionsOf c).map (·.fullName)) =
    some ["::Hatch::lift", "::Hatch::destructor", "::Gate::lift", "::Gate::constructor",
      "::Gate::cget", "::Gate::configure", "::Gate::info", "::Gate::isa"] := by
  decide +kernel

theorem hatchesWorld_reachable : Session.Reachable {} hatchesWorld :=
  (Session.Between.next hatches .start (by decide +kernel)).reachable

theorem hatchesWorld_wellNamed : hatchesWorld.registry.WellNamed :=
  Registry.wellNamed_of_forall (by decide +kernel)

theorem hatchesWorld_wordNamed : hatchesWorld.registry.WordNamed :=
  Registry.wordNamed_of_forall (by decide +kernel)

/-- The object of the world, its class, and some of the functions that are listed for it. -/
theorem exists_hatch :
    ∃ ob c, hatchesWorld.objects.get? ⟨1⟩ = some ob ∧
      hatchesWorld.registry.get? ob.cls = some c ∧ c.HasBuiltin .info ∧
      ∀ p ∈ [("::Gate::lift", false), ("::Gate::constructor", true),
          ("::Hatch::destructor", true)],
        ∃ f ∈ hatchesWorld.registry.functionsOf c, f.fullName = p.1 ∧ f.isLifecycle = p.2 := by
  have hobject : (hatchesWorld.objects.get? ⟨1⟩).map (·.cls) = some ⟨1⟩ := by decide +kernel
  have hclass : (hatchesWorld.registry.get? ⟨1⟩).map (fun c => decide (c.HasBuiltin .info ∧
      ∀ p ∈ [("::Gate::lift", false), ("::Gate::constructor", true),
          ("::Hatch::destructor", true)],
        ∃ f ∈ hatchesWorld.registry.functionsOf c, f.fullName = p.1 ∧ f.isLifecycle = p.2)) =
      some true := by
    decide +kernel
  obtain ⟨ob, hob, hcls⟩ := Option.map_eq_some_iff.mp hobject
  obtain ⟨c, hc, hparts⟩ := Option.map_eq_some_iff.mp hclass
  obtain ⟨hinfo, hfunctions⟩ := of_decide_eq_true hparts
  rw [← hcls] at hc
  exact ⟨ob, c, hob, hc, hinfo, hfunctions⟩

/-- The overridden function, which has no shorter name, is described under the name by
which it is listed, and the destructor is not. -/
theorem listings_of_hatches :
    ∃ ob c f, hatchesWorld.objects.get? ⟨1⟩ = some ob ∧
      hatchesWorld.registry.get? ob.cls = some c ∧
      f ∈ hatchesWorld.registry.functionsOf c ∧ f.fullName = "::Gate::lift" ∧
      (invoke (enterFrame (runCode 0 1)) ⟨1⟩ "info" [.str "function", .str "::Gate::lift"]).Answers
        { world := hatchesWorld } f.description ∧
      (invoke (enterFrame (runCode 0 1)) ⟨1⟩ "info"
        [.str "function", .str "::Hatch::destructor"]).Refuses
        { world := hatchesWorld } (.noSuchMember "::Hatch::destructor" c.fullName) := by
  obtain ⟨ob, c, hob, hc, hinfo, hfunctions⟩ := exists_hatch
  obtain ⟨f, hf, hname, hplain⟩ := hfunctions ("::Gate::lift", false) (by decide)
  obtain ⟨g, hg, hgname, hlifecycle⟩ := hfunctions ("::Hatch::destructor", true) (by decide)
  obtain ⟨⟨-, -, hdescribed, hrefused⟩, -⟩ := listings_of_info hatchesWorld_reachable
    hatchesWorld_wellNamed hatchesWorld_wordNamed hob hc hinfo (by decide +kernel) 0 0 []
  have hanswer := hdescribed f hf hplain
  have hrefusal := hrefused g hg hlifecycle
  rw [hname] at hanswer
  rw [hgname] at hrefusal
  exact ⟨ob, c, f, hob, hc, hf, hname, hanswer, hrefusal⟩

/-- **A constructor is listed and not described** by the name by which it is listed. -/
theorem exists_listed_constructor :
    ¬ ∀ (o : EngineOptions) (w : World) (object : ObjectId) (ob : Object) (c : Class),
      Session.Reachable o w → w.registry.WellNamed → w.registry.WordNamed →
      w.objects.get? object = some ob → w.registry.get? ob.cls = some c → c.HasBuiltin .info →
      w.stack.depth < w.stack.limit → ∀ loads frames, ∀ f ∈ w.registry.functionsOf c,
      (invoke (enterFrame (runCode loads (frames + 1))) object "info"
        [.str "function", .str f.fullName]).Answers { world := w } f.description := by
  intro h
  obtain ⟨ob, c, hob, hc, hinfo, hfunctions⟩ := exists_hatch
  obtain ⟨f, hf, hname, -⟩ := hfunctions ("::Gate::constructor", true) (by decide)
  have hanswer := h {} hatchesWorld ⟨1⟩ ob c hatchesWorld_reachable hatchesWorld_wellNamed
    hatchesWorld_wordNamed hob hc hinfo (by decide +kernel) 0 0 f hf
  rw [hname] at hanswer
  obtain ⟨t, ht, -⟩ := hanswer
  have hfailure : (invoke (enterFrame (runCode 0 1)) ⟨1⟩ "info"
      [.str "function", .str "::Gate::constructor"] { world := hatchesWorld }).1.isFailure =
        true := by
    decide +kernel
  have hvalue := congrArg (fun q => q.1.isFailure) ht
  exact absurd (hfailure.symm.trans hvalue) (by simp [Outcome.isFailure])

end ObjectDispatch
