import ObjectDispatch.Proofs.MemberNames
import ObjectDispatch.Proofs.OptionReports

/-!
# Public variables as options, whatever their names

A public variable is an option of the objects of its class.  Its name after the dash is
one of its spellings, and the list of options looks it up by its full name, which is put
together by plain concatenation and need not be a spelling at all.

In a class whose name has no component that ends with a colon, the declared variables that
have a name are read under it, however many colons there are elsewhere.  The list needs
more: it leaves the variables out when there is an empty component in the name of the
class.

## Main definitions

* `Class.Addressable` — the class names its functions so that they are found by name.

## Main results

* `Class.hasBuiltin_of_addressable` — the builtin methods are found by name.
* `Class.means_of_own` — own variables come first.
* `options_of_declared_variables` — **where the declared variables are options.**
-/

namespace ObjectDispatch

variable {o : EngineOptions} {r : Registry} {id : ClassId} {c : Class}

/-! ### Builtin methods -/

/-- No component of the name of the class ends with a colon, so the mark behind it is read
as one, and its functions have names.  All these names may have colons elsewhere. -/
structure Class.Addressable (c : Class) : Prop where
  closed : ∀ p ∈ Name.pieces c.fullName.toList, Name.IsClosed p
  functionNames : ∀ f ∈ c.functions.toList, f.name ≠ ""

instance (c : Class) : Decidable c.Addressable :=
  decidable_of_iff
    ((∀ p ∈ Name.pieces c.fullName.toList, Name.IsClosed p) ∧
      ∀ f ∈ c.functions.toList, f.name ≠ "")
    ⟨fun h => ⟨h.1, h.2⟩, fun h => ⟨h.closed, h.functionNames⟩⟩

namespace Class

/-- An unqualified name means the first function that has it, lifecycle functions apart. -/
theorem resolveFunction?_of_addressable (hr : r.Built o) (hc : r.get? id = some c)
    (hnames : ∀ k ∈ c.heritage, ∀ d, r.get? k = some d → d.Addressable) {n : String}
    (hn : Name.isQualified n = false) (hne : n ≠ "") :
    c.resolveFunction? n = (r.functionsOf c).find? fun f => !f.isLifecycle && f.name = n := by
  rw [resolveFunction?_eq_find? hr hc]
  refine List.find?_congr fun f hf => ?_
  obtain ⟨k, hk, d, hd, hfd⟩ := Registry.mem_functionsOf_iff.mp hf
  have hspelled : n ∈ Name.spellings f.fullName ↔ f.name = n := by
    rw [((hr.formed hd).functions.all f hfd).fullName_eq,
      Name.mem_spellings_member_iff (hnames k hk d hd).closed (hr.isQualified_function hd hfd)
        ((hnames k hk d hd).functionNames f hfd) hn hne, eq_comm]
  simp only [hspelled]

/-- **A builtin method is found by name**, when no other function of the heritage has its
name. -/
theorem hasBuiltin_of_addressable (hr : r.Built o) (hc : r.get? id = some c)
    (hnames : ∀ k ∈ c.heritage, ∀ d, r.get? k = some d → d.Addressable) {b : Builtin}
    (hown : ∀ f ∈ r.functionsOf c, f.name = b.name → f.flags.isBuiltin = true) :
    c.HasBuiltin b := by
  have hbody {f : MemberFunction} (hf : f ∈ r.functionsOf c) (hname : f.name = b.name) :
      f.isLifecycle = false ∧ f.body = .builtin b := by
    obtain ⟨k, -, d, hd, hfd⟩ := Registry.mem_functionsOf_iff.mp hf
    rcases hr.function_cases hd hfd with ⟨hplain, -⟩ | ⟨b', rfl⟩
    · rw [hown f hf hname] at hplain
      cases hplain
    · cases Builtin.name_injective hname
      exact ⟨rfl, rfl⟩
  -- some function of the heritage has the name
  obtain ⟨k, hk, d, hd, hhas⟩ := hr.exists_provider hc b
  obtain ⟨f, hf⟩ := hasFunction_iff.mp hhas
  obtain ⟨hfd, hname⟩ := (hr.formed hd).functions.get?_eq_some_iff.mp hf
  have hmem : f ∈ r.functionsOf c := Registry.mem_functionsOf_iff.mpr ⟨k, hk, d, hd, hfd⟩
  obtain ⟨g, hg⟩ : ∃ g, (r.functionsOf c).find? (fun f => !f.isLifecycle && f.name = b.name) =
      some g := by
    rw [← Option.isSome_iff_exists, List.find?_isSome]
    exact ⟨f, hmem, by simp [(hbody hmem hname).1, hname]⟩
  have hgname : g.name = b.name := by
    have htest := List.find?_some hg
    rw [Bool.and_eq_true, decide_eq_true_eq] at htest
    exact htest.2
  unfold HasBuiltin
  rw [resolveFunction?_of_addressable hr hc hnames (by cases b <;> decide)
    (by cases b <;> decide), hg, Option.bind_some, (hbody (List.mem_of_find?_eq_some hg) hgname).2]
  rfl

/-! ### Own variables -/

/-- The variables of a class come first among those of its heritage. -/
theorem exists_variablesOf_eq (hr : r.Built o) (hc : r.get? id = some c) :
    ∃ inherited, r.variablesOf c = c.ownVariables.toList ++ inherited := by
  unfold Registry.variablesOf
  rw [hr.heritage_eq hc, List.eraseDups_cons, List.filterMap_cons, hc]
  exact ⟨_, List.flatMap_cons⟩

/-- **Own variables come first**: a name that is a spelling of one of them means it. -/
theorem means_of_own (hr : r.Built o) (hc : r.get? id = some c) {n : String} {x : Variable}
    (hx : x ∈ c.ownVariables.toList)
    (hn : ∀ v ∈ c.ownVariables.toList, n ∈ Name.spellings v.fullName ↔ v = x) : c.Means n x := by
  have hfirst : c.ownVariables.toList.find? (fun v => n ∈ Name.spellings v.fullName) = some x := by
    refine find?_eq_of_forall_iff fun v => ?_
    rw [decide_eq_true_eq, Option.some.injEq]
    exact ⟨fun h => h ▸ ⟨hx, (hn x hx).mpr rfl⟩, fun ⟨hv, hspelled⟩ => ((hn v hv).mp hspelled).symm⟩
  obtain ⟨inherited, hvariables⟩ := exists_variablesOf_eq hr hc
  unfold Means
  rw [map_resolveVar? hr hc, hvariables, List.find?_append, hfirst, Option.some_or]

section

variable (hr : r.Built o) (hc : r.get? id = some c) (hplain : c.flags.plain = true)
variable (hclosed : ∀ p ∈ Name.pieces c.fullName.toList, Name.IsClosed p)
variable (hnamed : ∀ v ∈ c.ownVariables.toList, v.name ≠ "")

include hr hc hplain

/-- The variables of a plain class are declared, so their names hold no mark. -/
theorem isQualified_of_plain {v : Variable} (hv : v ∈ c.ownVariables.toList) :
    Name.isQualified v.name = false := by
  refine (hr.isQualified_variable hc hv).resolve_right fun h => ?_
  rw [hplain] at h
  cases h.1

variable {x : Variable} (hx : x ∈ c.ownVariables.toList)

include hclosed hnamed hx

/-- An own variable is meant by its name. -/
theorem means_name : c.Means x.name x := by
  refine means_of_own hr hc hx fun v hv => ?_
  have hholds := (hr.formed hc).ownVariables
  rw [(hholds.all v hv).fullName_eq, Name.mem_spellings_member_iff hclosed
    (isQualified_of_plain hr hc hplain hv) (hnamed v hv) (isQualified_of_plain hr hc hplain hx)
    (hnamed x hx)]
  exact ⟨fun h => List.inj_on_of_nodup_map hholds.nodup hv hx h.symm, fun h => h ▸ rfl⟩

/-- An own variable is meant by its full name, when the name of the class has no empty
components. -/
theorem means_fullName_of_own (hfull : ∀ p ∈ (Name.pieces c.fullName.toList).tail, p ≠ []) :
    c.Means x.fullName x := by
  refine means_of_own hr hc hx fun v hv => ?_
  have hholds := (hr.formed hc).ownVariables
  have hvq := isQualified_of_plain hr hc hplain hv
  have hxq := isQualified_of_plain hr hc hplain hx
  rw [(hholds.all v hv).fullName_eq, (hholds.all x hx).fullName_eq]
  constructor
  · intro hspelled
    -- the full name of `x` ends with the name of `x`
    have hlast := Name.getLast?_components_of_mem_spellings hspelled
    rw [Name.getLast?_components_member hclosed hxq (hnamed x hx),
      Name.getLast?_components_member hclosed hvq (hnamed v hv), Option.some.injEq] at hlast
    exact List.inj_on_of_nodup_map hholds.nodup hv hx hlast.symm
  · rintro rfl
    exact Name.member_mem_spellings hclosed hvq (hnamed v hv) (hr.isAnchored hc) hfull

/-- It is listed under its name. -/
theorem leastName_of_own {n : String} {e : VarLookup} (he : c.resolveVar? n = some e)
    (hvar : e.var = x) : e.leastName = x.name := by
  obtain ⟨before, after, hspellings, -, hbefore⟩ := leastName_spec hr hc he
  have hfirst : (Name.spellings x.fullName).head? = some x.name := by
    rw [((hr.formed hc).ownVariables.all x hx).fullName_eq]
    exact Name.head?_spellings_member hclosed (isQualified_of_plain hr hc hplain hx) (hnamed x hx)
  rw [hvar] at hspellings hbefore
  rw [hspellings] at hfirst
  cases before with
  | nil => exact Option.some.inj hfirst
  | cons m before =>
    -- the first spelling means the variable
    cases hfirst
    exact absurd (means_name hr hc hplain hclosed hnamed hx) (hbefore _ List.mem_cons_self)

end

end Class

/-- **Where the declared variables are options**, at any moment of any session, for every
live object of a plain class whose heritage defines neither `cget` nor `configure`.

Let no class name of the heritage have a component that ends with a colon, and let the
functions of the heritage and the variables of the class have names; otherwise all names
are as they like.  Then
`cget` with the name of a public variable of the class answers what the object stores in
it.  If moreover the name of the class has no empty components, the list of options has a
row for the variable under its name, with its default and its value. -/
theorem options_of_declared_variables {o : EngineOptions} {w : World}
    (hw : Session.Reachable o w) {object : ObjectId} {ob : Object} {c : Class}
    (hob : w.objects.get? object = some ob) (hc : w.registry.get? ob.cls = some c)
    (hplain : c.flags.plain = true)
    (hbuiltin : ∀ f ∈ w.registry.functionsOf c,
      f.name = "cget" ∨ f.name = "configure" → f.flags.isBuiltin = true)
    (hnames : ∀ k ∈ c.heritage, ∀ d, w.registry.get? k = some d → d.Addressable)
    (hnamed : ∀ v ∈ c.ownVariables.toList, v.name ≠ "")
    {x : Variable} (hx : x ∈ c.ownVariables.toList) (hpublic : x.isPublic = true)
    (hroom : w.stack.depth < w.stack.limit) (loads frames : Nat) (journal : List Event) :
    let call := invoke (enterFrame (runCode loads (frames + 1))) object
    let s : State := { world := w, journal := journal }
    c.Means x.name x ∧
    (call "cget" [.str ("-" ++ x.name)]).Answers s (w.optionValue ob x) ∧
    ((∀ p ∈ (Name.pieces c.fullName.toList).tail, p ≠ []) →
      ∃ rows, (call "configure" []).Answers s (.list rows) ∧
        .list [.str ("-" ++ x.name), w.optionDefault x, w.optionValue ob x] ∈ rows) := by
  intro call s
  have hr := hw.built
  have hclosed := (hnames ob.cls ((hr.mem_heritage_iff hc).mpr .refl) c hc).closed
  have hmeans := Class.means_name hr hc hplain hclosed hnamed hx
  have hcget : c.HasBuiltin .cget :=
    Class.hasBuiltin_of_addressable hr hc hnames fun f hf hn => hbuiltin f hf (Or.inl hn)
  have hconfigure : c.HasBuiltin .configure :=
    Class.hasBuiltin_of_addressable hr hc hnames fun f hf hn => hbuiltin f hf (Or.inr hn)
  refine ⟨hmeans, ?_, fun hfull => ?_⟩
  · obtain ⟨e, he, rfl⟩ := Option.map_eq_some_iff.mp hmeans
    have hfind : findOption c ("-" ++ e.var.name) = .ok e := by
      have hdash : afterDash? ("-" ++ e.var.name) = some e.var.name := by
        simp [afterDash?, String.toList_append]
      unfold findOption
      rw [hdash, Option.bind_some, he]
      exact if_pos hpublic
    refine answers_invoke_builtin hr hob hc hcget hroom fun t f ht hruns => ?_
    rw [runBuiltin]
    refine cget_apply _ hruns (Or.inl hplain) hfind ?_
    rw [ht]
    exact World.currentValue_eq hob e.var
  · obtain ⟨e, he, hvar⟩ := Option.map_eq_some_iff.mp
      (Class.means_fullName_of_own hr hc hplain hclosed hnamed hx hfull)
    have hrow : w.optionEntry ob e =
        .list [.str ("-" ++ x.name), w.optionDefault x, w.optionValue ob x] := by
      unfold World.optionEntry
      rw [Class.leastName_of_own hr hc hplain hclosed hnamed hx he hvar, hvar]
    have hoption : x ∈ w.registry.optionsOf c := by
      refine List.mem_filter.mpr ⟨?_, hpublic⟩
      exact Registry.mem_variablesOf_iff.mpr
        ⟨ob.cls, (hr.mem_heritage_iff hc).mpr .refl, c, hc, hx⟩
    refine ⟨(w.registry.optionsOf c).filterMap fun v =>
      (c.resolveVar? v.fullName).map (w.optionEntry ob), ?_, ?_⟩
    · refine answers_invoke_builtin hr hob hc hconfigure hroom fun t f ht hruns => ?_
      rw [runBuiltin]
      refine configure_nil_apply _ _ hruns (Or.inl hplain) ?_
      rw [ht]
      exact World.listOptions_eq_filterMap hr hc hob
    · refine List.mem_filterMap.mpr ⟨x, hoption, ?_⟩
      rw [he, Option.map_some, hrow]

/-- Defines a class whose name ends with a mark and one that inherits from it, with single
colons in its names, and creates an object of the second. -/
def menus : Expr :=
  .sequence [
    .defineClass { name := "Base::", members := [.var "size" .pub none] },
    .defineClass
      { name := "a:b::Menu", inherits := ["Base::"]
        members :=
          [.var ":color" .pub (some (.str "red")), .method "cget:" .priv (.const .empty)] },
    .create (some (.const (.str "a:b::Menu"))) (.const (.str "m")) []]

/-- The world after the two classes are defined and the object created. -/
def menusWorld : World := (Session.step 0 (World.initial {}) menus).2.world

theorem menusWorld_reachable : Session.Reachable {} menusWorld :=
  (Session.Between.next menus .start (by decide +kernel)).reachable

/-- The variable whose name begins with a colon is an option under that name. -/
theorem options_of_menus :
    ∃ ob x rows, menusWorld.objects.get? ⟨1⟩ = some ob ∧ x.fullName = "::a:b::Menu:::color" ∧
      (invoke (enterFrame (runCode 0 1)) ⟨1⟩ "cget" [.str "-:color"]).Answers
        { world := menusWorld } (menusWorld.optionValue ob x) ∧
      (invoke (enterFrame (runCode 0 1)) ⟨1⟩ "configure" []).Answers
        { world := menusWorld } (.list rows) ∧
      .list [.str "-:color", menusWorld.optionDefault x, menusWorld.optionValue ob x] ∈ rows := by
  have hobject : (menusWorld.objects.get? ⟨1⟩).map (·.cls) = some ⟨1⟩ := by decide +kernel
  have hclass : (menusWorld.registry.get? ⟨1⟩).map (fun c => decide (c.flags.plain = true ∧
      (∀ f ∈ menusWorld.registry.functionsOf c,
        f.name = "cget" ∨ f.name = "configure" → f.flags.isBuiltin = true) ∧
      (∀ v ∈ c.ownVariables.toList, v.name ≠ "") ∧
      (∀ p ∈ (Name.pieces c.fullName.toList).tail, p ≠ []) ∧
      ∃ x ∈ c.ownVariables.toList, x.isPublic = true ∧ x.name = ":color" ∧
        x.fullName = "::a:b::Menu:::color")) = some true := by
    decide +kernel
  have hnames : ∀ d ∈ menusWorld.registry.classes, d.Addressable := by decide +kernel
  obtain ⟨ob, hob, hcls⟩ := Option.map_eq_some_iff.mp hobject
  obtain ⟨c, hc, hparts⟩ := Option.map_eq_some_iff.mp hclass
  obtain ⟨hplain, hbuiltin, hnamed, hfull, x, hx, hpublic, hname, hfullName⟩ :=
    of_decide_eq_true hparts
  rw [← hcls] at hc
  obtain ⟨-, hcget, hlist⟩ := options_of_declared_variables menusWorld_reachable hob hc hplain
    hbuiltin (fun k _ d hd => hnames d (Registry.mem_of_get? hd)) hnamed hx hpublic
    (by decide +kernel) 0 0 []
  obtain ⟨rows, hrows, hrow⟩ := hlist hfull
  rw [hname] at hcget hrow
  exact ⟨ob, x, rows, hob, hfullName, hcget, hrows, hrow⟩

/-- Defines a class whose name ends with a mark, and creates an object of it. -/
def panes : Expr :=
  .sequence [
    .defineClass { name := "ui::", members := [.var "color" .pub (some (.str "red"))] },
    .create (some (.const (.str "ui::"))) (.const (.str "p")) []]

/-- The world after the class is defined and the object created. -/
def panesWorld : World := (Session.step 0 (World.initial {}) panes).2.world

/-- The length of the list with which a run ended, if it ended with one. -/
def Outcome.length? : Outcome Value → Option Nat
  | .value (.list vs) => some vs.length
  | _ => none

/-- **A public variable is no listed option** when the name of its class ends with a
mark. -/
theorem exists_unlisted_option :
    ¬ ∀ (o : EngineOptions) (w : World) (object : ObjectId) (ob : Object) (c : Class)
      (x : Variable), Session.Reachable o w → w.objects.get? object = some ob →
      w.registry.get? ob.cls = some c → c.flags.plain = true →
      (∀ f ∈ w.registry.functionsOf c,
        f.name = "cget" ∨ f.name = "configure" → f.flags.isBuiltin = true) →
      x ∈ c.ownVariables.toList → x.isPublic = true → w.stack.depth < w.stack.limit →
      ∀ loads frames,
      let call := invoke (enterFrame (runCode loads (frames + 1))) object
      (call "cget" [.str ("-" ++ x.name)]).Answers { world := w } (w.optionValue ob x) ∧
      ∃ rows n, (call "configure" []).Answers { world := w } (.list rows) ∧ c.Means n x ∧
        .list [.str ("-" ++ n), w.optionDefault x, w.optionValue ob x] ∈ rows := by
  intro h
  have hreachable : Session.Reachable {} panesWorld :=
    (Session.Between.next panes .start (by decide +kernel)).reachable
  have hobject : (panesWorld.objects.get? ⟨1⟩).map (·.cls) = some ⟨0⟩ := by decide +kernel
  have hclass : (panesWorld.registry.get? ⟨0⟩).map (fun c => decide (c.flags.plain = true ∧
      (∀ f ∈ panesWorld.registry.functionsOf c,
        f.name = "cget" ∨ f.name = "configure" → f.flags.isBuiltin = true) ∧
      ∃ x ∈ c.ownVariables.toList, x.isPublic = true)) = some true := by
    decide +kernel
  obtain ⟨ob, hob, hcls⟩ := Option.map_eq_some_iff.mp hobject
  obtain ⟨c, hc, hparts⟩ := Option.map_eq_some_iff.mp hclass
  obtain ⟨hplain, hbuiltin, x, hx, hpublic⟩ := of_decide_eq_true hparts
  rw [← hcls] at hc
  obtain ⟨-, rows, n, ⟨t, ht, -⟩, -, hrow⟩ := h {} panesWorld ⟨1⟩ ob c x hreachable hob hc
    hplain hbuiltin hx hpublic (by decide +kernel) 0 0
  have hnone : (invoke (enterFrame (runCode 0 1)) ⟨1⟩ "configure" []
      { world := panesWorld }).1.length? = some 0 := by
    decide +kernel
  have hlength := congrArg (fun q => q.1.length?) ht
  rw [List.eq_nil_of_length_eq_zero (Option.some.inj (hlength.symm.trans hnone))] at hrow
  cases hrow

end ObjectDispatch
