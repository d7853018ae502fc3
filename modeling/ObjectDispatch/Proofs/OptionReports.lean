import ObjectDispatch.Proofs.FullNames

/-!
# The reports of options

The options of an object are reported in four ways: `configure` lists them all,
`configure` and `cget` report one of them, and `info variable` describes the
variable.  The list goes through the variables of the heritage by full name, the
others take any name that means the variable.

Where names are well formed, a full name means its own variable, however names
are shadowed.  So the list leaves out no option, its names are those that the
other ways take, and all of them report the same.

## Main definitions

* `Registry.optionsOf` — the public variables of a heritage.
* `Class.optionName` — the name under which a variable is listed.
* `Run.Answers` — a run that ends with a value and changes nothing.

## Main results

* `Class.means_fullName` — **a full name means its own variable.**
* `World.listOptions_eq_filterMap`, `World.listOptions_eq` — what the list of options is.
* `reports_of_options` — **the reports of options agree.**
-/

namespace ObjectDispatch

variable {o : EngineOptions} {r : Registry} {id : ClassId} {c : Class}

/-- The classes have well-formed names. -/
def Registry.WellNamed (r : Registry) : Prop := ∀ id c, r.get? id = some c → c.WellNamed

theorem Registry.wellNamed_of_forall
    (h : ∀ c ∈ r.classes, (∀ p ∈ (Name.pieces c.fullName.toList).tail, Name.IsWord p) ∧
      ∀ v ∈ c.ownVariables.toList, Name.IsWord v.name.toList) : r.WellNamed := by
  intro id c hc
  obtain ⟨hcls, hvars⟩ := h c (Registry.mem_of_get? hc)
  exact ⟨hcls, hvars⟩

/-- The options of a class: the public variables of its heritage. -/
def Registry.optionsOf (r : Registry) (c : Class) : List Variable :=
  (r.variablesOf c).filter (·.isPublic)

/-! ### Full names -/

/-- No two variables of registered classes have one full name. -/
theorem Registry.Built.eq_of_variable_fullName_eq (hr : r.Built o) (hnames : r.WellNamed)
    {a b : ClassId} {d e : Class} (hd : r.get? a = some d) (he : r.get? b = some e)
    {u v : Variable} (hu : u ∈ d.ownVariables.toList) (hv : v ∈ e.ownVariables.toList)
    (h : v.fullName = u.fullName) : u = v := by
  rw [((hr.formed hd).ownVariables.all u hu).fullName_eq,
    ((hr.formed he).ownVariables.all v hv).fullName_eq] at h
  obtain ⟨rfl, hname⟩ := (hr.memberName_eq_iff he hd (hnames b e he).components
    (hnames a d hd).components ((hnames b e he).varNames v hv) ((hnames a d hd).varNames u hu)).mp h
  -- the class has one variable of the name
  cases hd.symm.trans he
  exact List.inj_on_of_nodup_map (hr.formed hd).ownVariables.nodup hu hv hname.symm

namespace Class

/-- **A full name means its own variable**, whatever shadows its shorter names. -/
theorem means_fullName (hr : r.Built o) (hnames : r.WellNamed) (hc : r.get? id = some c)
    {v : Variable} (hv : v ∈ r.variablesOf c) : c.Means v.fullName v := by
  obtain ⟨k, hk, d, hd, hvd⟩ := Registry.mem_variablesOf_iff.mp hv
  have howned := (hr.formed hd).ownVariables
  unfold Means
  rw [(howned.all v hvd).fullName_eq]
  refine (map_resolveVar?_memberName hr hc (fun j _ e he => hnames j e he) hk hd
    ((hnames k d hd).varNames v hvd)).trans ?_
  exact howned.get?_eq_some_iff.mpr ⟨hvd, rfl⟩

/-- What is recorded of a variable has one least name. -/
theorem leastName_eq (hr : r.Built o) (hc : r.get? id = some c) {m n : String}
    {e e' : VarLookup} (he : c.resolveVar? m = some e) (he' : c.resolveVar? n = some e')
    (h : e.var = e'.var) : e.leastName = e'.leastName := by
  classical
  have hfirst {k : String} {f : VarLookup} (hf : c.resolveVar? k = some f) :
      (Name.spellings f.var.fullName).find? (fun x => c.Means x f.var) = some f.leastName := by
    obtain ⟨before, after, hspellings, hmeans, hbefore⟩ := leastName_spec hr hc hf
    rw [List.find?_eq_some_iff_append]
    exact ⟨by simpa using hmeans, before, after, hspellings, by simpa using hbefore⟩
  have hleast := hfirst he
  rw [h, hfirst he'] at hleast
  exact (Option.some.inj hleast).symm

/-- The name under which a variable is listed as an option: the least name of what
its full name means. -/
def optionName (c : Class) (v : Variable) : String :=
  ((c.resolveVar? v.fullName).map (·.leastName)).getD ""

/-- The name under which a variable is listed means the variable, and it is the
name that is recorded for it. -/
theorem exists_resolveVar?_optionName (hr : r.Built o) (hnames : r.WellNamed)
    (hc : r.get? id = some c) {v : Variable} (hv : v ∈ r.variablesOf c) :
    ∃ e, c.resolveVar? (c.optionName v) = some e ∧ e.var = v ∧
      e.leastName = c.optionName v := by
  obtain ⟨e, he, hev⟩ := Option.map_eq_some_iff.mp (means_fullName hr hnames hc hv)
  have hname : c.optionName v = e.leastName := by simp [optionName, he]
  obtain ⟨-, -, -, hmeans, -⟩ := leastName_spec hr hc he
  obtain ⟨e', he', hev'⟩ := Option.map_eq_some_iff.mp hmeans
  rw [hname]
  exact ⟨e', he', hev'.trans hev, leastName_eq hr hc he' he hev'⟩

/-- No two options are listed under one name. -/
theorem nodup_optionNames (hr : r.Built o) (hnames : r.WellNamed) (hc : r.get? id = some c) :
    ((r.optionsOf c).map c.optionName).Nodup := by
  refine List.Nodup.map_on ?_ ((hr.nodup_variablesOf hc).filter _)
  intro u hu v hv huv
  obtain ⟨e, he, heu, -⟩ := exists_resolveVar?_optionName hr hnames hc (List.mem_of_mem_filter hu)
  obtain ⟨e', he', hev, -⟩ :=
    exists_resolveVar?_optionName hr hnames hc (List.mem_of_mem_filter hv)
  -- the name means only one variable
  rw [huv, he'] at he
  rw [← heu, ← hev, Option.some.inj he]

end Class

/-! ### What is reported -/

namespace World

variable {w : World} {object : ObjectId} {ob : Object}

/-- The default of a variable, or what stands for it. -/
def optionDefault (w : World) (v : Variable) : Value := v.init.getD w.marker

/-- The value of a variable of an object, or what stands for it. -/
def optionValue (w : World) (ob : Object) (v : Variable) : Value :=
  (ob.value? v.fullName).getD w.marker

/-- The report of an option. -/
def optionRow (w : World) (c : Class) (ob : Object) (v : Variable) : Value :=
  .list [.str ("-" ++ c.optionName v), w.optionDefault v, w.optionValue ob v]

theorem currentValue_eq (hob : w.objects.get? object = some ob) (v : Variable) :
    w.currentValue object v.fullName = .ok (w.optionValue ob v) := by
  unfold currentValue
  rw [objectAt_eq hob]
  rfl

/-- A variable is described by what is declared of it and by its value. -/
theorem describeVariable_eq (hob : w.objects.get? object = some ob) {n : String} {e : VarLookup}
    (he : c.resolveVar? n = some e) :
    w.describeVariable c (some object) n =
      .ok (.list [.str e.var.protection.word, .str e.var.fullName, w.optionDefault e.var,
        w.optionValue ob e.var]) := by
  unfold describeVariable
  rw [he]
  show (do
    let current ← w.currentValue object e.var.fullName
    return _) = _
  rw [currentValue_eq hob]
  rfl

/-- The report of what a name means, as the name of an option. -/
def optionEntry (w : World) (ob : Object) (e : VarLookup) : Value :=
  .list [.str ("-" ++ e.leastName), w.optionDefault e.var, w.optionValue ob e.var]

theorem reportOption_eq_optionEntry (hob : w.objects.get? object = some ob) (e : VarLookup) :
    w.reportOption object e = .ok (w.optionEntry ob e) := by
  unfold reportOption
  rw [currentValue_eq hob]
  rfl

theorem reportOption_eq (hob : w.objects.get? object = some ob) {e : VarLookup}
    (he : e.leastName = c.optionName e.var) :
    w.reportOption object e = .ok (w.optionRow c ob e.var) := by
  rw [reportOption_eq_optionEntry hob, optionEntry, he]
  rfl

/-- Variables whose full names mean nothing are left out, and for the others that is
reported which their full names mean. -/
theorem reportOptions_eq (hob : w.objects.get? object = some ob) (vs : List Variable) :
    w.reportOptions c object vs =
      .ok (vs.filterMap fun v => (c.resolveVar? v.fullName).map (w.optionEntry ob)) := by
  induction vs with
  | nil => rfl
  | cons v vs ih =>
    unfold reportOptions
    cases he : c.resolveVar? v.fullName with
    | none => rw [List.filterMap_cons, he, Option.map_none, ← ih]
    | some e =>
      rw [List.filterMap_cons, he, Option.map_some]
      simp only
      rw [reportOption_eq_optionEntry hob, ih]
      rfl

theorem classesAt_eq {ids : List ClassId} (h : ∀ k ∈ ids, ∃ d, w.registry.get? k = some d) :
    w.classesAt ids = .ok (ids.filterMap w.registry.get?) := by
  unfold classesAt
  induction ids with
  | nil => rfl
  | cons k ids ih =>
    obtain ⟨d, hd⟩ := h k List.mem_cons_self
    rw [List.mapM_cons, classAt_eq hd, ih fun j hj => h j (List.mem_cons_of_mem _ hj),
      List.filterMap_cons, hd]
    rfl

/-- What the list of options is, whatever the names are. -/
theorem listOptions_eq_filterMap (hr : w.registry.Built o) (hc : w.registry.get? id = some c)
    (hob : w.objects.get? object = some ob) :
    w.listOptions c object = .ok (.list ((w.registry.optionsOf c).filterMap fun v =>
      (c.resolveVar? v.fullName).map (w.optionEntry ob))) := by
  have hoptions : (c.heritage.filterMap w.registry.get?).flatMap
      (fun owner => owner.ownVariables.toList.filter (·.isPublic)) = w.registry.optionsOf c := by
    rw [Registry.optionsOf, Registry.variablesOf, List.filter_flatMap]
  unfold listOptions
  rw [classesAt_eq fun k hk => hr.exists_get?_of_mem_heritage hc hk]
  show (do return Value.list (← w.reportOptions c object _)) = _
  rw [hoptions, reportOptions_eq hob]
  rfl

/-- **What the list of options is** where names are well formed: one report for each option
of the class. -/
theorem listOptions_eq (hr : w.registry.Built o) (hnames : w.registry.WellNamed)
    (hc : w.registry.get? id = some c) (hob : w.objects.get? object = some ob) :
    w.listOptions c object =
      .ok (.list ((w.registry.optionsOf c).map (w.optionRow c ob))) := by
  rw [listOptions_eq_filterMap hr hc hob, ← List.filterMap_eq_map]
  congr 2
  refine List.filterMap_congr fun v hv => ?_
  -- the full name means its own variable
  obtain ⟨e, he, rfl⟩ := Option.map_eq_some_iff.mp
    (Class.means_fullName hr hnames hc (List.mem_of_mem_filter hv))
  have hleast : e.leastName = c.optionName e.var := by simp [Class.optionName, he]
  rw [he, Option.map_some, optionEntry, hleast]
  rfl

end World

/-- The option under which a variable is listed means the variable. -/
theorem exists_findOption (hr : r.Built o) (hnames : r.WellNamed) (hc : r.get? id = some c)
    {v : Variable} (hv : v ∈ r.optionsOf c) :
    ∃ e, findOption c ("-" ++ c.optionName v) = .ok e ∧ e.var = v ∧
      e.leastName = c.optionName v := by
  obtain ⟨hv, hpublic⟩ := List.mem_filter.mp hv
  obtain ⟨e, he, hev, hleast⟩ := Class.exists_resolveVar?_optionName hr hnames hc hv
  have hdash : afterDash? ("-" ++ c.optionName v) = some (c.optionName v) := by
    simp [afterDash?, String.toList_append]
  refine ⟨e, ?_, hev, hleast⟩
  unfold findOption
  rw [hdash, Option.bind_some, he]
  simp only
  rw [if_pos (by rw [hev]; exact hpublic)]

/-! ### Builtin methods -/

/-- The run ends with the value `a`, and the world is as before. -/
def Run.Answers {α : Type} (r : Run α) (s : State) (a : α) : Prop :=
  ∃ t, r s = (.value a, t) ∧ t.world = s.world

/-- The builtin method that the code is, if it is one. -/
def Code.builtin? : Code → Option Builtin
  | .script _ => none
  | .builtin b => some b

/-- The name of the builtin method means that method in the class. -/
def Class.HasBuiltin (c : Class) (b : Builtin) : Prop :=
  (c.resolveFunction? b.name).bind (·.body.builtin?) = some b

instance (c : Class) (b : Builtin) : Decidable (c.HasBuiltin b) :=
  inferInstanceAs (Decidable (_ = _))

theorem Class.HasBuiltin.exists_body_eq {b : Builtin} (h : c.HasBuiltin b) :
    ∃ f, c.resolveFunction? b.name = some f ∧ f.body = .builtin b := by
  obtain ⟨f, hf, hb⟩ := Option.bind_eq_some_iff.mp h
  refine ⟨f, hf, ?_⟩
  cases hbody : f.body with
  | script e => rw [hbody] at hb; cases hb
  | builtin b' => rw [hbody] at hb; cases hb; rfl

/-- Everybody may call a builtin method, and it runs on the object. -/
theorem Registry.Built.of_body_eq_builtin (hr : r.Built o) (hc : r.get? id = some c) {n : String}
    {f : MemberFunction} (hf : c.resolveFunction? n = some f) {b : Builtin}
    (hb : f.body = .builtin b) : f.protection = .pub ∧ f.flags = { isBuiltin := true } := by
  obtain ⟨-, -, k, -, d, hd, hfd⟩ := hr.exists_of_resolveFunction? hc hf
  exact ((hr.formed hd).functions.all f hfd).builtin b hb

/-- In the world code runs on the object, which is alive and of the class `c`. -/
structure World.RunsOn (w : World) (object : ObjectId) (ob : Object) (c : Class) : Prop where
  context : ∃ k, w.context = .ok (k, some object)
  object : w.objects.get? object = some ob
  cls : w.registry.get? ob.cls = some c

namespace World.RunsOn

variable {w : World} {object : ObjectId} {ob : Object}

theorem of_entered {f : Frame} (hf : f.object = some object) (a : Activity)
    (hob : w.objects.get? object = some ob) (hc : w.registry.get? ob.cls = some c) :
    (w.after (.entered f a)).RunsOn object ob c := by
  refine ⟨⟨f.scope, ?_⟩, hob, hc⟩
  rw [← hf]
  rfl

/-- The options of that object are meant. -/
theorem optionScope_eq (h : w.RunsOn object ob c) (fault : UsageFault) :
    optionScope w fault = .ok (object, c) := by
  obtain ⟨⟨k, hcontext⟩, hob, hc⟩ := h
  unfold optionScope
  rw [hcontext]
  show (do return (object, ← w.classOf object)) = _
  rw [classOf_eq hob hc]
  rfl

/-- `info variable` describes a variable of that object. -/
theorem info_variable_eq (h : w.RunsOn object ob c) {n : String} {e : VarLookup}
    (he : c.resolveVar? n = some e) :
    w.info [.str "variable", .str n] =
      .ok (.list [.str e.var.protection.word, .str e.var.fullName, w.optionDefault e.var,
        w.optionValue ob e.var]) := by
  obtain ⟨⟨k, hcontext⟩, hob, hc⟩ := h
  unfold info
  rw [hcontext]
  show (do
    let c ← w.classOf object
    w.infoTopic c (some object) "variable" [.str n]) = _
  rw [classOf_eq hob hc]
  exact describeVariable_eq hob he

end World.RunsOn

section Calls

variable {s t : State} {object : ObjectId} {ob : Object} {loads frames : Nat} {b : Builtin}
  {args : List Value} {x : Value}

/-- The frame in which a builtin method of the class runs on an object. -/
def builtinFrame (f : MemberFunction) (object : ObjectId) (b : Builtin) : Frame :=
  { scope := f.owner, object := some object, member := some b.name, kind := .builtin }

/-- A call of a builtin method of the class enters a frame for it, whoever calls. -/
theorem invoke_builtin_eq (hob : s.world.objects.get? object = some ob)
    (hc : s.world.registry.get? ob.cls = some c) {f : MemberFunction}
    (hf : c.resolveFunction? b.name = some f)
    (hbuiltin : f.protection = .pub ∧ f.flags = { isBuiltin := true }) (enter : Enter)
    (args : List Value) :
    invoke enter object b.name args s = enter (builtinFrame f object b) (.body f) args s := by
  obtain ⟨hpub, hflags⟩ := hbuiltin
  have hcallable : callable c b.name s.world = .ok f := by
    simp only [callable, hf, checkAccess, mayCall, hpub]
    rfl
  have hframe : callMember enter f (if f.flags.isCommon then none else some object) b.name args =
      enter (builtinFrame f object b) (.body f) args := by
    simp [callMember, builtinFrame, MemberFunction.frameKind, hflags]
  unfold invoke
  rw [Run.look_bind_of_ok (World.classOf_eq hob hc), Run.look_bind_of_ok hcallable, hframe]

/-- A builtin method that only looks at the world, in the frame that is entered for
it, answers the call. -/
theorem answers_invoke_builtin (hr : s.world.registry.Built o)
    (hob : s.world.objects.get? object = some ob) (hc : s.world.registry.get? ob.cls = some c)
    (hb : c.HasBuiltin b) (hroom : s.world.stack.depth < s.world.stack.limit)
    (hrun : ∀ (t : State) (f : MemberFunction),
      t.world = s.world.after (.entered (builtinFrame f object b) (.body f)) →
      t.world.RunsOn object ob c →
      runBuiltin (enterFrame (runCode loads frames))
        (evaluateLoading (enterFrame (runCode loads frames)) loads) args b t = (.value x, t)) :
    (invoke (enterFrame (runCode loads (frames + 1))) object b.name args).Answers s x := by
  obtain ⟨f, hf, hbody⟩ := hb.exists_body_eq
  have hcode : runCode loads (frames + 1) (Activity.body f).code args
      (s.after (.entered (builtinFrame f object b) (.body f))) =
      (.value x, s.after (.entered (builtinFrame f object b) (.body f))) := by
    show runCode loads (frames + 1) f.body args _ = _
    rw [hbody]
    exact hrun _ f rfl (.of_entered rfl (.body f) hob hc)
  -- the frame that was entered has been left, so the world is as before
  refine ⟨(s.after (.entered (builtinFrame f object b) (.body f))).after (.left none), ?_, rfl⟩
  rw [invoke_builtin_eq hob hc hf (hr.of_body_eq_builtin hc hf hbody), enterFrame_apply,
    if_neg (by omega), hcode]

/-- A call that is not handed to the delegate goes on. -/
theorem delegated_apply (evaluate : Evaluate) (method : String) (args : List Value)
    (h : c.flags.plain ∨ t.world.delegate = none) :
    delegated evaluate c object method args t = (.value none, t) := by
  have hnone : (if c.flags.plain then none else t.world.delegate) = none := by
    rcases h with h | h
    · rw [if_pos h]
    · rw [h, ite_self]
  unfold delegated
  rw [Run.bind_apply, Run.world_apply]
  simp only
  rw [hnone]
  rfl

/-- Reading the list of options. -/
theorem configure_nil_apply (enter : Enter) (evaluate : Evaluate)
    (hruns : t.world.RunsOn object ob c)
    (hdelegate : c.flags.plain ∨ t.world.delegate = none)
    (hlist : t.world.listOptions c object = .ok x) :
    configure enter evaluate [] t = (.value x, t) := by
  unfold configure
  rw [Run.bind_apply, Run.look_apply, hruns.optionScope_eq]
  simp only
  rw [Run.bind_apply, delegated_apply evaluate "configure" [] hdelegate]
  simp only
  rw [Run.look_apply, hlist]

/-- Reading the report of one option. -/
theorem configure_option_apply (enter : Enter) (evaluate : Evaluate) {token : Value}
    {e : VarLookup} (hruns : t.world.RunsOn object ob c)
    (hdelegate : c.flags.plain ∨ t.world.delegate = none)
    (hdash : (afterDash? token.text).isSome) (hfind : findOption c token.text = .ok e)
    (hreport : t.world.reportOption object e = .ok x) :
    configure enter evaluate [token] t = (.value x, t) := by
  unfold configure
  rw [Run.bind_apply, Run.look_apply, hruns.optionScope_eq]
  simp only
  rw [Run.bind_apply, delegated_apply evaluate "configure" [token] hdelegate]
  simp only
  rw [if_neg (by simpa [Option.isSome_iff_ne_none] using hdash), hfind]
  show Run.look (·.reportOption object e) t = _
  rw [Run.look_apply, hreport]

/-- Reading the value of an option. -/
theorem cget_apply (evaluate : Evaluate) {token : Value} {e : VarLookup}
    (hruns : t.world.RunsOn object ob c)
    (hdelegate : c.flags.plain ∨ t.world.delegate = none)
    (hfind : findOption c token.text = .ok e)
    (hvalue : t.world.currentValue object e.var.fullName = .ok x) :
    cget evaluate [token] t = (.value x, t) := by
  unfold cget
  rw [Run.bind_apply, Run.look_apply, hruns.optionScope_eq]
  simp only
  rw [Run.bind_apply, delegated_apply evaluate "cget" [token] hdelegate]
  simp only
  rw [hfind]
  show Run.look (·.currentValue object e.var.fullName) t = _
  rw [Run.look_apply, hvalue]

end Calls

/-- **The reports of options agree**, for every live object whose class has
well-formed names, whatever its variables shadow and whoever inherits them.

The list of options has one row for each public variable of the heritage, in
heritage order and then in the order of creation, and the names in the rows are
distinct.  For each row the single report is the same row, `cget` answers the
value in it, and `info variable` gives the protection, the full name, and the
default and the value in it. -/
theorem reports_of_options {o : EngineOptions} {w : World} (hw : Session.Reachable o w)
    (hnames : w.registry.WellNamed) {object : ObjectId} {ob : Object} {c : Class}
    (hob : w.objects.get? object = some ob) (hc : w.registry.get? ob.cls = some c)
    (hcget : c.HasBuiltin .cget) (hconfigure : c.HasBuiltin .configure)
    (hinfo : c.HasBuiltin .info) (hdelegate : c.flags.plain ∨ w.delegate = none)
    (hroom : w.stack.depth < w.stack.limit) (loads frames : Nat) (journal : List Event) :
    let call := invoke (enterFrame (runCode loads (frames + 1))) object
    let s : State := { world := w, journal := journal }
    let options := w.registry.optionsOf c
    (options.map c.optionName).Nodup ∧
    (call "configure" []).Answers s (.list (options.map (w.optionRow c ob))) ∧
    ∀ v ∈ options,
      (call "configure" [.str ("-" ++ c.optionName v)]).Answers s (w.optionRow c ob v) ∧
      (call "cget" [.str ("-" ++ c.optionName v)]).Answers s (w.optionValue ob v) ∧
      (call "info" [.str "variable", .str (c.optionName v)]).Answers s
        (.list [.str "public", .str v.fullName, w.optionDefault v, w.optionValue ob v]) := by
  intro call s options
  have hr := hw.built
  refine ⟨Class.nodup_optionNames hr hnames hc, ?_, fun v hv => ?_⟩
  · refine answers_invoke_builtin hr hob hc hconfigure hroom fun t f ht hruns => ?_
    rw [runBuiltin]
    refine configure_nil_apply _ _ hruns (by rw [ht]; exact hdelegate) ?_
    rw [ht]
    exact World.listOptions_eq hr hnames hc hob
  · obtain ⟨e, hfind, rfl, hleast⟩ := exists_findOption hr hnames hc hv
    have hdash : (afterDash? ("-" ++ c.optionName e.var)).isSome := by
      simp [afterDash?, String.toList_append]
    refine ⟨?_, ?_, ?_⟩
    · refine answers_invoke_builtin hr hob hc hconfigure hroom fun t f ht hruns => ?_
      rw [runBuiltin]
      refine configure_option_apply _ _ hruns (by rw [ht]; exact hdelegate) hdash hfind ?_
      rw [ht]
      exact World.reportOption_eq hob hleast
    · refine answers_invoke_builtin hr hob hc hcget hroom fun t f ht hruns => ?_
      rw [runBuiltin]
      refine cget_apply _ hruns (by rw [ht]; exact hdelegate) hfind ?_
      rw [ht]
      exact World.currentValue_eq hob e.var
    · obtain ⟨hmem, hpublic⟩ := List.mem_filter.mp hv
      obtain ⟨e', he', hvar, -⟩ := Class.exists_resolveVar?_optionName hr hnames hc hmem
      have hword : e.var.protection.word = "public" := by
        rw [of_decide_eq_true hpublic]
        rfl
      refine answers_invoke_builtin hr hob hc hinfo hroom fun t f ht hruns => ?_
      rw [runBuiltin, Run.look_apply, hruns.info_variable_eq he', hvar, hword, ht]
      rfl

theorem shadowingWorld_wellNamed : shadowingWorld.registry.WellNamed :=
  Registry.wellNamed_of_forall (by decide +kernel)

/-- The option that is shadowed is listed and read under a qualified name. -/
theorem reports_of_shadowing :
    ∃ ob c v, shadowingWorld.objects.get? ⟨1⟩ = some ob ∧
      shadowingWorld.registry.get? ob.cls = some c ∧
      (shadowingWorld.registry.optionsOf c).map c.optionName =
        ["color", "size", "Base::size"] ∧
      v.fullName = "::ui::Base::size" ∧
      (invoke (enterFrame (runCode 0 1)) ⟨1⟩ "configure" [.str "-Base::size"]).Answers
        { world := shadowingWorld } (shadowingWorld.optionRow c ob v) ∧
      (invoke (enterFrame (runCode 0 1)) ⟨1⟩ "cget" [.str "-Base::size"]).Answers
        { world := shadowingWorld } (shadowingWorld.optionValue ob v) := by
  have hobject : (shadowingWorld.objects.get? ⟨1⟩).map (·.cls) = some ⟨1⟩ := by decide +kernel
  have hclass : (shadowingWorld.registry.get? ⟨1⟩).map (fun c =>
      ((shadowingWorld.registry.optionsOf c).map fun v => (c.optionName v, v.fullName),
        decide (c.HasBuiltin .cget ∧ c.HasBuiltin .configure ∧ c.HasBuiltin .info ∧
          c.flags.plain))) =
      some ([("color", "::Derived::color"), ("size", "::Derived::size"),
        ("Base::size", "::ui::Base::size")], true) := by
    decide +kernel
  obtain ⟨ob, hob, hcls⟩ := Option.map_eq_some_iff.mp hobject
  obtain ⟨c, hc, hparts⟩ := Option.map_eq_some_iff.mp hclass
  simp only [Prod.mk.injEq, decide_eq_true_eq] at hparts
  obtain ⟨hoptions, hcget, hconfigure, hinfo, hplain⟩ := hparts
  rw [← hcls] at hc
  have hmem : ("Base::size", "::ui::Base::size") ∈
      (shadowingWorld.registry.optionsOf c).map fun v => (c.optionName v, v.fullName) := by
    rw [hoptions]
    simp
  obtain ⟨v, hv, hnames⟩ := List.mem_map.mp hmem
  simp only [Prod.mk.injEq] at hnames
  obtain ⟨hname, hfull⟩ := hnames
  obtain ⟨-, -, hreports⟩ := reports_of_options shadowingWorld_reachable
    shadowingWorld_wellNamed hob hc hcget hconfigure hinfo (Or.inl hplain) (by decide +kernel) 0 0
    []
  obtain ⟨hrow, hvalue, -⟩ := hreports v hv
  rw [hname] at hrow hvalue
  refine ⟨ob, c, v, hob, hc, ?_, hfull, hrow, hvalue⟩
  have hfirst := congrArg (List.map Prod.fst) hoptions
  rwa [List.map_map] at hfirst

end ObjectDispatch
