import Mathlib.Algebra.Group.Nat.Even
import Mathlib.Data.List.TakeWhile
import ObjectDispatch.Proofs.OptionReports
import ObjectDispatch.Proofs.Privacy

/-!
# Setting options

`configure` with pairs of options and values assigns them one after the other, and
the first option that no public variable has ends the call.  An option is named by any
spelling of its variable, and several spellings mean one variable, while one
spelling may be shared by several; the value is stored under the full name.

Where names are well formed, two options share a stored value only if they are
the same variable.  So what is read of an option after the call is the value of
the last pair for it, under whichever name, and without one it is what was read
before.

## Main definitions

* `optionArguments` — the arguments for pairs of options and values.
* `Class.Offers` — a text names a variable as an option.
* `Class.assignments` — what pairs assign.

## Main results

* `assignOptions_append` — pairs are assigned one after the other.
* `invoke_configure_apply` — what a call of `configure` with pairs does.
* `configure_sets_options` — **what is read of the options after pairs have been
  assigned.**
-/

namespace ObjectDispatch

variable {o : EngineOptions} {r : Registry} {k : ClassId} {c : Class} {object : ObjectId}
variable {ob : Object}

/-! ### Pairs -/

/-- The arguments of `configure` for pairs of options and values. -/
def optionArguments (pairs : List (Value × Value)) : List Value :=
  pairs.flatMap fun p => [p.1, p.2]

@[simp] theorem optionArguments_cons (p : Value × Value) (ps : List (Value × Value)) :
    optionArguments (p :: ps) = p.1 :: p.2 :: optionArguments ps := rfl

theorem length_optionArguments (ps : List (Value × Value)) :
    (optionArguments ps).length = 2 * ps.length := by
  induction ps with
  | nil => rfl
  | cons p ps ih =>
    rw [optionArguments_cons, List.length_cons, List.length_cons, ih, List.length_cons]
    omega

theorem even_length_optionArguments (ps : List (Value × Value)) :
    Even (optionArguments ps).length := by
  rw [length_optionArguments]
  exact even_two_mul _

/-- Pairs are assigned one after the other. -/
theorem assignOptions_append (enter : Enter) (c : Class) (object : ObjectId) {ps : List Value}
    (hps : Even ps.length) (qs : List Value) :
    assignOptions enter c object (ps ++ qs) =
      assignOptions enter c object ps >>= fun _ => assignOptions enter c object qs := by
  fun_induction assignOptions enter c object ps with
  | case1 => rfl
  | case2 => simp at hps
  | case3 token value rest ih =>
    have hrest : Even rest.length := by
      rw [List.length_cons, List.length_cons] at hps
      grind
    rw [List.cons_append, List.cons_append, assignOptions, ih hrest]
    simp only [bind_assoc]

/-! ### Calls -/

section

variable {s : State} {f : MemberFunction} {args : List Value}

/-- With pairs, or at least more than one argument, `configure` assigns options. -/
theorem configure_assign_apply (enter : Enter) (evaluate : Evaluate)
    (hruns : s.world.RunsOn object ob c) (hdelegate : c.flags.plain ∨ s.world.delegate = none)
    (hargs : 2 ≤ args.length) :
    configure enter evaluate args s =
      (assignOptions enter c object args >>= fun _ => pure Value.empty) s := by
  unfold configure
  rw [Run.look_bind_of_ok (hruns.optionScope_eq _)]
  simp only
  rw [Run.bind_apply, delegated_apply evaluate "configure" args hdelegate]
  rcases args with _ | ⟨token, _ | ⟨value, rest⟩⟩
  · cases hargs
  · simp at hargs
  · rfl

/-- How a call of `configure` ends when the assignments in its frame have ended. -/
def endConfigure : Outcome Unit × State → Outcome Value × State
  | (.value _, t) => (.value Value.empty, t.after (.left none))
  | (.failure e, t) => (.failure e, t.after (.left (some e)))
  | (.exhausted, t) => (.exhausted, t)

/-- **What a call of `configure` with pairs does**: a frame is entered, and in it options
are assigned until the pairs are used up or one of them fails. -/
theorem invoke_configure_apply (hob : s.world.objects.get? object = some ob)
    (hc : s.world.registry.get? ob.cls = some c) (hplain : c.flags.plain)
    (hf : c.resolveFunction? Builtin.configure.name = some f) (hbody : f.body = .builtin .configure)
    (hbuiltin : f.protection = .pub ∧ f.flags = { isBuiltin := true })
    (hroom : s.world.stack.depth < s.world.stack.limit) (loads frames : Nat)
    (hargs : 2 ≤ args.length) :
    invoke (enterFrame (runCode loads (frames + 1))) object "configure" args s =
      endConfigure (assignOptions (enterFrame (runCode loads frames)) c object args
        (s.after (.entered (builtinFrame f object .configure) (.body f)))) := by
  have hcode : runCode loads (frames + 1) (Activity.body f).code args
      (s.after (.entered (builtinFrame f object .configure) (.body f))) =
      (assignOptions (enterFrame (runCode loads frames)) c object args >>= fun _ =>
        pure Value.empty) (s.after (.entered (builtinFrame f object .configure) (.body f))) := by
    show runCode loads (frames + 1) f.body args _ = _
    rw [hbody]
    exact configure_assign_apply _ _ (.of_entered rfl (.body f) hob hc) (Or.inl hplain) hargs
  have hinvoke :=
    invoke_builtin_eq hob hc hf hbuiltin (enterFrame (runCode loads (frames + 1))) args
  rw [enterFrame_apply, if_neg (by omega), hcode, Run.bind_apply] at hinvoke
  refine hinvoke.trans ?_
  cases assignOptions (enterFrame (runCode loads frames)) c object args
    (s.after (.entered (builtinFrame f object .configure) (.body f))) with
  | mk out t => cases out <;> rfl

end

/-! ### What is named -/

theorem afterDash?_eq_some_iff {option n : String} :
    afterDash? option = some n ↔ option = "-" ++ n := by
  unfold afterDash?
  split
  · next cs h =>
    have hoption : option = "-" ++ .ofList cs :=
      String.toList_inj.mp (by simp [h, String.toList_append])
    rw [hoption, Option.some.injEq, String.append_right_inj]
  · next h =>
    refine iff_of_false nofun ?_
    rintro rfl
    exact h n.toList (by rw [String.toList_append]; rfl)

/-- The text names the variable as an option: a dash and a name of the variable, which is
public. -/
def Class.Offers (c : Class) (option : String) (v : Variable) : Prop :=
  ∃ n, option = "-" ++ n ∧ c.Means n v ∧ v.isPublic

theorem Class.offers_iff {option : String} {v : Variable} :
    c.Offers option v ↔ ∃ e, findOption c option = .ok e ∧ e.var = v := by
  unfold Class.Offers findOption
  simp only [← afterDash?_eq_some_iff]
  cases hdash : afterDash? option with
  | none => simp
  | some n =>
    simp only [Option.some.injEq, exists_eq_left', Option.bind_some, Class.Means]
    cases c.resolveVar? n with
    | none => simp
    | some e =>
      by_cases hpublic : e.var.isPublic = true
      · simp only [Option.map_some, Option.some.injEq, hpublic, if_true, Except.ok.injEq,
          exists_eq_left', and_iff_left_iff_imp]
        rintro rfl
        exact hpublic
      · simp only [Option.map_some, Option.some.injEq, hpublic, Bool.false_eq_true, if_false,
          reduceCtorEq, false_and, exists_false, iff_false, not_and]
        rintro rfl
        exact hpublic

/-- The variable that an option names is the one that is found. -/
theorem Class.offers_of_toOption {option : String} {e : VarLookup}
    (h : (findOption c option).toOption = some e) : c.Offers option e.var := by
  cases hfind : findOption c option with
  | ok e' =>
    rw [hfind] at h
    cases h
    exact Class.offers_iff.mpr ⟨e, hfind, rfl⟩
  | error => rw [hfind] at h; cases h

/-- What is no option of the class is refused by its name. -/
theorem findOption_eq_error {option : String} (h : ∀ v, ¬ c.Offers option v) :
    findOption c option = .error (.unknownOption option) := by
  have hnot : ∀ e, findOption c option ≠ .ok e := fun e he =>
    h e.var (Class.offers_iff.mpr ⟨e, he, rfl⟩)
  unfold findOption at hnot ⊢
  split
  · rfl
  · next entry hentry =>
    simp only [hentry] at hnot
    split
    · next hpublic => exact absurd (if_pos hpublic) (hnot entry)
    · rfl

theorem Class.Offers.unique {option : String} {u v : Variable} (hu : c.Offers option u)
    (hv : c.Offers option v) : u = v := by
  obtain ⟨e, he, rfl⟩ := Class.offers_iff.mp hu
  obtain ⟨e', he', rfl⟩ := Class.offers_iff.mp hv
  cases he.symm.trans he'
  rfl

/-- The class knows the option of a pair. -/
def Class.Knows (c : Class) (p : Value × Value) : Prop := ∃ v, c.Offers p.1.text v

instance (c : Class) : DecidablePred c.Knows := fun p =>
  decidable_of_iff ((findOption c p.1.text).toOption.isSome = true) <| by
    unfold Class.Knows
    simp only [Class.offers_iff]
    cases findOption c p.1.text <;> simp [Except.toOption]

/-! ### What assignments leave as it is -/

namespace World

variable {w : World} {es : List Event}

/-- What assignments make of a world they make of its objects, whatever else there is:
an induction on the assignments. -/
theorem exists_replay_eq_of_assigned (hes : ∀ e ∈ es, ∃ y x, e = .assigned object y x) :
    ∃ g : ObjectTable → ObjectTable, ∀ w : World,
      w.replay es = { w with objects := g w.objects } := by
  induction es with
  | nil => exact ⟨id, fun _ => rfl⟩
  | cons e es ih =>
    rw [List.forall_mem_cons] at hes
    obtain ⟨⟨y, x, rfl⟩, hes⟩ := hes
    obtain ⟨g, hg⟩ := ih hes
    exact ⟨fun t => g (t.update object (·.set y x)), fun w => hg _⟩

/-- Assignments change the objects and nothing else of the world. -/
theorem replay_of_assigned (hes : ∀ e ∈ es, ∃ y x, e = .assigned object y x) :
    w.replay es = { w with objects := (w.replay es).objects } := by
  obtain ⟨g, hg⟩ := exists_replay_eq_of_assigned hes
  rw [hg]

/-- Assignments in a frame are the same without it. -/
theorem replay_entered_of_assigned (hes : ∀ e ∈ es, ∃ y x, e = .assigned object y x) (f : Frame)
    (a : Activity) :
    (w.after (.entered f a)).replay es = (w.replay es).after (.entered f a) := by
  obtain ⟨g, hg⟩ := exists_replay_eq_of_assigned hes
  rw [hg, hg]
  rfl

/-- Assignments leave the variables as they are that they do not name: an induction on
the assignments. -/
theorem exists_get?_replay_of_assigned (hes : ∀ e ∈ es, ∃ y x, e = .assigned object y x)
    (hob : w.objects.get? object = some ob) :
    ∃ ob', (w.replay es).objects.get? object = some ob' ∧ ob'.cls = ob.cls ∧
      ∀ y, (∀ e ∈ es, e.write? ≠ some (object, y)) → ob'.value? y = ob.value? y := by
  induction es generalizing w ob with
  | nil => exact ⟨ob, hob, rfl, fun _ _ => rfl⟩
  | cons e es ih =>
    rw [List.forall_mem_cons] at hes
    obtain ⟨⟨x, v, rfl⟩, hes⟩ := hes
    have hassigned := get?_after_assigned hob x v
    obtain ⟨ob', hob', hcls, hvalues⟩ := ih hes hassigned
    refine ⟨ob', hob', hcls, fun y hy => ?_⟩
    rw [List.forall_mem_cons] at hy
    exact (hvalues y hy.2).trans (value?_after hob hassigned hy.1)

end World

/-! ### What is assigned -/

/-- What the pairs assign: of each pair whose option the class has, the value to the
variable. -/
def Class.assignments (c : Class) (object : ObjectId) (pairs : List (Value × Value)) :
    List Event :=
  pairs.filterMap fun p =>
    (findOption c p.1.text).toOption.map fun e => .assigned object e.var.fullName p.2

namespace Class

theorem assignments_cons {p : Value × Value} {e : VarLookup}
    (he : findOption c p.1.text = .ok e) (ps : List (Value × Value)) :
    c.assignments object (p :: ps) =
      .assigned object e.var.fullName p.2 :: c.assignments object ps :=
  List.filterMap_cons_some (by rw [he]; rfl)

theorem assignments_append (ps qs : List (Value × Value)) :
    c.assignments object (ps ++ qs) = c.assignments object ps ++ c.assignments object qs :=
  List.filterMap_append

theorem exists_of_mem_assignments {pairs : List (Value × Value)} {e : Event}
    (he : e ∈ c.assignments object pairs) :
    ∃ p ∈ pairs, ∃ v, c.Offers p.1.text v ∧ e = .assigned object v.fullName p.2 := by
  obtain ⟨p, hp, he⟩ := List.mem_filterMap.mp he
  obtain ⟨entry, hentry, rfl⟩ := Option.map_eq_some_iff.mp he
  exact ⟨p, hp, entry.var, offers_of_toOption hentry, rfl⟩

theorem isAssigned_of_mem_assignments (c : Class) (object : ObjectId)
    (pairs : List (Value × Value)) :
    ∀ e ∈ c.assignments object pairs, ∃ y x, e = .assigned object y x := by
  intro e he
  obtain ⟨p, -, v, -, rfl⟩ := exists_of_mem_assignments he
  exact ⟨v.fullName, p.2, rfl⟩

/-- The variables that a class offers are of its heritage. -/
theorem Offers.mem_variablesOf (hr : r.Built o) (hc : r.get? k = some c) {option : String}
    {v : Variable} (h : c.Offers option v) : v ∈ r.variablesOf c := by
  obtain ⟨n, -, hmeans, -⟩ := h
  obtain ⟨e, he, rfl⟩ := Option.map_eq_some_iff.mp hmeans
  exact mem_variablesOf_of_resolveVar? hr hc he

/-- Options that store their values under one full name are the same. -/
theorem Offers.eq_of_fullName_eq (hr : r.Built o) (hnames : r.WellNamed)
    (hc : r.get? k = some c) {m n : String} {u v : Variable} (hu : c.Offers m u)
    (hv : c.Offers n v) (h : v.fullName = u.fullName) : u = v := by
  obtain ⟨a, -, d, hd, hud⟩ := Registry.mem_variablesOf_iff.mp (hu.mem_variablesOf hr hc)
  obtain ⟨b, -, e, he, hve⟩ := Registry.mem_variablesOf_iff.mp (hv.mem_variablesOf hr hc)
  exact hr.eq_of_variable_fullName_eq hnames hd he hud hve h

section

variable {w : World} (hr : r.Built o) (hnames : r.WellNamed) (hc : r.get? k = some c)
variable {m : String} {v : Variable} (hv : c.Offers m v)

include hr hnames hc hv

/-- **Pairs that name other options leave an option as it is.** -/
theorem optionValue_of_not_offered (hob : w.objects.get? object = some ob)
    {pairs : List (Value × Value)} (hpairs : ∀ p ∈ pairs, ¬ c.Offers p.1.text v) :
    ∃ ob', (w.replay (c.assignments object pairs)).objects.get? object = some ob' ∧
      ob'.cls = ob.cls ∧
      (w.replay (c.assignments object pairs)).optionValue ob' v = w.optionValue ob v := by
  have hassigned := c.isAssigned_of_mem_assignments object pairs
  obtain ⟨ob', hob', hcls, hvalues⟩ := World.exists_get?_replay_of_assigned hassigned hob
  refine ⟨ob', hob', hcls, ?_⟩
  have hvalue : ob'.value? v.fullName = ob.value? v.fullName := by
    refine hvalues _ fun e he hwrite => ?_
    obtain ⟨p, hp, u, hu, rfl⟩ := exists_of_mem_assignments he
    -- a pair that writes the value names the option itself
    have hfull : u.fullName = v.fullName := congrArg Prod.snd (Option.some.inj hwrite)
    cases hv.eq_of_fullName_eq hr hnames hc hu hfull
    exact hpairs p hp hu
  rw [World.replay_of_assigned hassigned]
  unfold World.optionValue
  rw [hvalue]
  rfl

/-- **The last pair that names an option gives its value.** -/
theorem optionValue_of_last_offered (hob : w.objects.get? object = some ob)
    (before : List (Value × Value)) {after : List (Value × Value)} {p : Value × Value}
    (hp : c.Offers p.1.text v) (hafter : ∀ q ∈ after, ¬ c.Offers q.1.text v) :
    ∃ ob', (w.replay (c.assignments object (before ++ p :: after))).objects.get? object =
        some ob' ∧ ob'.cls = ob.cls ∧
      (w.replay (c.assignments object (before ++ p :: after))).optionValue ob' v = p.2 := by
  obtain ⟨ob₁, hob₁, hcls₁, -⟩ :=
    World.exists_get?_replay_of_assigned (c.isAssigned_of_mem_assignments object before) hob
  obtain ⟨e, he, rfl⟩ := offers_iff.mp hp
  have hob₂ := World.get?_after_assigned hob₁ e.var.fullName p.2
  obtain ⟨ob', hob', hcls, hvalue⟩ := optionValue_of_not_offered hr hnames hc hv hob₂ hafter
  rw [assignments_append, assignments_cons he, World.replay_append, World.replay_cons]
  refine ⟨ob', hob', hcls.trans hcls₁, hvalue.trans ?_⟩
  unfold World.optionValue
  rw [World.value?_after_assigned hob₂]
  rfl

end

end Class

/-! ### What calls do -/

section

variable {s : State}

/-- An option without a hook is assigned and nothing more. -/
theorem assignOption_apply_of_hook_eq_none (enter : Enter)
    (hob : s.world.objects.get? object = some ob) {v : Variable} (hv : v.hook = none)
    (x : Value) :
    assignOption enter object v x s = (.value (), s.after (.assigned object v.fullName x)) := by
  unfold assignOption
  rw [Run.look_bind_of_ok (World.objectAt_eq hob), Run.bind_apply, Run.happen_apply, hv]
  rfl

/-- How assignments end that stop at the first of the pairs `rest`, if there is one. -/
def stopAt {α : Type} (x : α) (rest : List (Value × Value)) : Outcome α :=
  match rest with
  | [] => .value x
  | p :: _ => .failure (.unknownOption p.1.text)

/-- Options without hooks are assigned up to the first pair that names none, which ends the
assignments: an induction on the pairs. -/
theorem assignOptions_apply (enter : Enter) (hob : s.world.objects.get? object = some ob)
    {pairs : List (Value × Value)}
    (hhooks : ∀ p ∈ pairs, ∀ v, c.Offers p.1.text v → v.hook = none) :
    assignOptions enter c object (optionArguments pairs) s =
      (stopAt () (pairs.dropWhile (c.Knows ·)),
        (c.assignments object (pairs.takeWhile (c.Knows ·))).foldl State.after s) := by
  induction pairs generalizing s ob with
  | nil => rfl
  | cons p ps ih =>
    rw [List.forall_mem_cons] at hhooks
    rw [optionArguments_cons, assignOptions]
    by_cases hp : c.Knows p
    · rw [List.takeWhile_cons_of_pos (by simpa using hp),
        List.dropWhile_cons_of_pos (by simpa using hp)]
      obtain ⟨v, hv⟩ := hp
      obtain ⟨e, he, rfl⟩ := Class.offers_iff.mp hv
      rw [he, Class.assignments_cons he, List.foldl_cons,
        ← ih (World.get?_after_assigned hob e.var.fullName p.2) hhooks.2]
      show (assignOption enter object e.var p.2 >>= fun _ => _) s = _
      rw [Run.bind_apply, assignOption_apply_of_hook_eq_none enter hob (hhooks.1 _ hv)]
    · rw [List.takeWhile_cons_of_neg (by simpa using hp),
        List.dropWhile_cons_of_neg (by simpa using hp),
        findOption_eq_error fun v hv => hp ⟨v, hv⟩]
      rfl

/-- **A call of `configure` with pairs for options without hooks** assigns those before
the first unknown option, and changes nothing else. -/
theorem exists_invoke_configure_apply (hr : s.world.registry.Built o)
    (hob : s.world.objects.get? object = some ob) (hc : s.world.registry.get? ob.cls = some c)
    (hplain : c.flags.plain) (hconfigure : c.HasBuiltin .configure)
    (hroom : s.world.stack.depth < s.world.stack.limit) (pairs : List (Value × Value))
    (hpairs : pairs ≠ []) (hhooks : ∀ p ∈ pairs, ∀ v, c.Offers p.1.text v → v.hook = none)
    (loads frames : Nat) :
    ∃ t, invoke (enterFrame (runCode loads (frames + 1))) object "configure"
        (optionArguments pairs) s = (stopAt Value.empty (pairs.dropWhile (c.Knows ·)), t) ∧
      t.world = s.world.replay (c.assignments object (pairs.takeWhile (c.Knows ·))) := by
  obtain ⟨f, hf, hbody⟩ := hconfigure.exists_body_eq
  have hargs : 2 ≤ (optionArguments pairs).length := by
    have hlength := List.length_pos_iff.mpr hpairs
    rw [length_optionArguments]
    omega
  have hrun := assignOptions_apply (enterFrame (runCode loads frames))
    (s := s.after (.entered (builtinFrame f object .configure) (.body f))) hob hhooks
  have hcall := invoke_configure_apply hob hc hplain hf hbody
    (hr.of_body_eq_builtin hc hf hbody) hroom loads frames hargs
  rw [hrun] at hcall
  -- the frame is left again, so what remains is what was assigned
  have hworld (es : List Event) (hes : ∀ e ∈ es, ∃ y x, e = .assigned object y x)
      (failure : Option DispatchError) :
      ((es.foldl State.after (s.after (.entered (builtinFrame f object .configure)
        (.body f)))).world.after (.left failure)) = s.world.replay es := by
    have hentered : (s.after (.entered (builtinFrame f object .configure) (.body f))).world =
        s.world.after (.entered (builtinFrame f object .configure) (.body f)) := rfl
    rw [State.world_foldl_after, hentered, World.replay_entered_of_assigned hes]
    rfl
  cases hrest : pairs.dropWhile (c.Knows ·) with
  | nil =>
    rw [hrest] at hcall
    exact ⟨_, hcall, hworld _ (c.isAssigned_of_mem_assignments object _) none⟩
  | cons p rest =>
    rw [hrest] at hcall
    exact ⟨_, hcall, hworld _ (c.isAssigned_of_mem_assignments object _)
      (some (.unknownOption p.1.text))⟩

/-- What `cget` answers for an option of an object. -/
theorem answers_cget {s : State} (hr : s.world.registry.Built o)
    (hob : s.world.objects.get? object = some ob) (hc : s.world.registry.get? ob.cls = some c)
    (hplain : c.flags.plain) (hcget : c.HasBuiltin .cget)
    (hroom : s.world.stack.depth < s.world.stack.limit) (loads frames : Nat) {m : Value}
    {v : Variable} (hm : c.Offers m.text v) :
    (invoke (enterFrame (runCode loads (frames + 1))) object "cget" [m]).Answers s
      (s.world.optionValue ob v) := by
  obtain ⟨e, he, rfl⟩ := Class.offers_iff.mp hm
  refine answers_invoke_builtin hr hob hc hcget hroom fun t f ht hruns => ?_
  rw [runBuiltin]
  refine cget_apply _ hruns (Or.inl hplain) he ?_
  rw [ht]
  exact World.currentValue_eq hob e.var

end

/-- **What is read of the options after pairs have been assigned**, for every live object
of a plain class with the builtin methods, and pairs for options without hooks, under any
of their names.

The pairs before the first unknown option are assigned, and nothing else happens to the
world: the call ends with a value exactly if every pair names an option, and otherwise
with the unknown one.  From then on, under whatever name of an option, `cget` answers
the value of the last pair that was assigned to the same variable; where there is none
it answers what it answered before. -/
theorem configure_sets_options {o : EngineOptions} {w : World} (hw : Session.Reachable o w)
    (hnames : w.registry.WellNamed) {object : ObjectId} {ob : Object} {c : Class}
    (hob : w.objects.get? object = some ob) (hc : w.registry.get? ob.cls = some c)
    (hplain : c.flags.plain) (hcget : c.HasBuiltin .cget) (hconfigure : c.HasBuiltin .configure)
    (hroom : w.stack.depth < w.stack.limit) (pairs : List (Value × Value)) (hpairs : pairs ≠ [])
    (hhooks : ∀ p ∈ pairs, ∀ v, c.Offers p.1.text v → v.hook = none) (loads frames : Nat)
    (journal : List Event) :
    let call := invoke (enterFrame (runCode loads (frames + 1))) object
    let s : State := { world := w, journal := journal }
    let applied := pairs.takeWhile (c.Knows ·)
    ∃ out t, call "configure" (optionArguments pairs) s = (out, t) ∧
      ((∃ x, out = .value x) ↔ ∀ p ∈ pairs, ∃ v, c.Offers p.1.text v) ∧
      (∀ p ∈ (pairs.dropWhile (c.Knows ·)).head?, out = .failure (.unknownOption p.1.text)) ∧
      t.world = w.replay (c.assignments object applied) ∧
      ∀ (m : Value) (v : Variable), c.Offers m.text v →
        (∀ before p after, applied = before ++ p :: after → c.Offers p.1.text v →
          (∀ q ∈ after, ¬ c.Offers q.1.text v) → (call "cget" [m]).Answers t p.2) ∧
        ((∀ p ∈ applied, ¬ c.Offers p.1.text v) →
          ∃ x, (call "cget" [m]).Answers s x ∧ (call "cget" [m]).Answers t x) := by
  intro call s applied
  have hr := hw.built
  obtain ⟨t, hcall, hworld⟩ :=
    exists_invoke_configure_apply (s := s) hr hob hc hplain hconfigure hroom pairs hpairs hhooks
      loads frames
  -- what has been assigned is read in the class and on the stack from before
  have hsame := World.replay_of_assigned (w := w) (c.isAssigned_of_mem_assignments object applied)
  rw [← hworld] at hsame
  have hregistry : t.world.registry = w.registry := by rw [hsame]
  have hstack : t.world.stack = w.stack := by rw [hsame]
  have hread {m : Value} {v : Variable} (hm : c.Offers m.text v) {ob' : Object}
      (hob' : t.world.objects.get? object = some ob') (hcls : ob'.cls = ob.cls) :
      (call "cget" [m]).Answers t (t.world.optionValue ob' v) :=
    answers_cget (o := o) (by rw [hregistry]; exact hr) hob' (by rw [hregistry, hcls]; exact hc)
      hplain hcget (by rw [hstack]; exact hroom) loads frames hm
  refine ⟨_, t, hcall, ?_, ?_, hworld, fun m v hm => ⟨?_, fun hnone => ?_⟩⟩
  · have hall : pairs.dropWhile (c.Knows ·) = [] ↔ ∀ p ∈ pairs, ∃ v, c.Offers p.1.text v :=
      List.dropWhile_eq_nil_iff.trans (forall₂_congr fun p _ => decide_eq_true_iff)
    rw [← hall]
    cases pairs.dropWhile (c.Knows ·) with
    | nil => exact iff_of_true ⟨_, rfl⟩ rfl
    | cons p rest => exact iff_of_false nofun nofun
  · intro p hp
    cases hrest : pairs.dropWhile (c.Knows ·) with
    | nil => rw [hrest] at hp; cases hp
    | cons q rest => rw [hrest] at hp; cases hp; rfl
  · intro before p after hsplit hp hafter
    obtain ⟨ob', hob', hcls, hvalue⟩ :=
      Class.optionValue_of_last_offered hr hnames hc hm hob before hp hafter
    rw [← hsplit, ← hworld] at hob' hvalue
    exact hvalue ▸ hread hm hob' hcls
  · obtain ⟨ob', hob', hcls, hvalue⟩ :=
      Class.optionValue_of_not_offered hr hnames hc hm hob hnone
    rw [← hworld] at hob' hvalue
    exact ⟨_, answers_cget hr hob hc hplain hcget hroom loads frames hm,
      hvalue ▸ hread hm hob' hcls⟩

/-- Two names of one of the variables that are called `size`, one name of the other, and an
unknown option before one that is known. -/
def shadowedPairs : List (Value × Value) :=
  [(.str "-size", .int 7), (.str "-Base::size", .int 9), (.str "-Derived::size", .int 8),
    (.str "-length", .int 1), (.str "-color", .str "red")]

/-- The shadowed option and the one that shadows it have their own values, and what follows
the unknown option is not assigned. -/
theorem configure_sets_shadowed_options :
    ∃ t, invoke (enterFrame (runCode 0 1)) ⟨1⟩ "configure" (optionArguments shadowedPairs)
        { world := shadowingWorld } = (.failure (.unknownOption "-length"), t) ∧
      (invoke (enterFrame (runCode 0 1)) ⟨1⟩ "cget" [.str "-size"]).Answers t (.int 8) ∧
      (invoke (enterFrame (runCode 0 1)) ⟨1⟩ "cget" [.str "-ui::Base::size"]).Answers t (.int 9) ∧
      ∃ x, (invoke (enterFrame (runCode 0 1)) ⟨1⟩ "cget" [.str "-color"]).Answers
          { world := shadowingWorld } x ∧
        (invoke (enterFrame (runCode 0 1)) ⟨1⟩ "cget" [.str "-color"]).Answers t x := by
  have hobject : (shadowingWorld.objects.get? ⟨1⟩).map (·.cls) = some ⟨1⟩ := by decide +kernel
  have hclass : (shadowingWorld.registry.get? ⟨1⟩).map (fun c =>
      (["-size", "-Derived::size", "-Base::size", "-ui::Base::size", "-color"].map fun n =>
          (findOption c n).toOption.map (·.var.fullName),
        shadowedPairs.all fun p => ((findOption c p.1.text).toOption.bind (·.var.hook)).isNone,
        (shadowedPairs.takeWhile (c.Knows ·)).length,
        decide (c.HasBuiltin .cget ∧ c.HasBuiltin .configure ∧ c.flags.plain))) =
      some (["::Derived::size", "::Derived::size", "::ui::Base::size", "::ui::Base::size",
        "::Derived::color"].map some, true, 3, true) := by
    decide +kernel
  obtain ⟨ob, hob, hcls⟩ := Option.map_eq_some_iff.mp hobject
  obtain ⟨c, hc, hparts⟩ := Option.map_eq_some_iff.mp hclass
  simp only [List.map_cons, List.map_nil, Prod.mk.injEq, List.cons.injEq, and_true,
    decide_eq_true_eq] at hparts
  obtain ⟨⟨hsize, hsize', hbase, hbase', hcolor⟩, hhooks, hlength, hcget, hconfigure, hplain⟩ :=
    hparts
  rw [← hcls] at hc
  have hr := shadowingWorld_reachable.built
  have hoffers {n full : String}
      (h : (findOption c n).toOption.map (·.var.fullName) = some full) :
      ∃ v, c.Offers n v ∧ v.fullName = full := by
    obtain ⟨e, he, hfull⟩ := Option.map_eq_some_iff.mp h
    exact ⟨e.var, Class.offers_of_toOption he, hfull⟩
  obtain ⟨size, hsize, hsizeFull⟩ := hoffers hsize
  obtain ⟨size', hsize', hsizeFull'⟩ := hoffers hsize'
  obtain ⟨base, hbase, hbaseFull⟩ := hoffers hbase
  obtain ⟨base', hbase', hbaseFull'⟩ := hoffers hbase'
  obtain ⟨color, hcolor, hcolorFull⟩ := hoffers hcolor
  -- each full name is that of one variable
  cases hsize.eq_of_fullName_eq hr shadowingWorld_wellNamed hc hsize'
    (hsizeFull'.trans hsizeFull.symm)
  cases hbase.eq_of_fullName_eq hr shadowingWorld_wellNamed hc hbase'
    (hbaseFull'.trans hbaseFull.symm)
  have hother {n : String} {u v : Variable} (hu : c.Offers n u) (h : u.fullName ≠ v.fullName) :
      ¬ c.Offers n v := fun hv => h (congrArg _ (hu.unique hv))
  have hnoHook : ∀ p ∈ shadowedPairs, ∀ v, c.Offers p.1.text v → v.hook = none := by
    intro p hp v hv
    obtain ⟨e, he, rfl⟩ := Class.offers_iff.mp hv
    have hnone := List.all_eq_true.mp hhooks p hp
    rw [he] at hnone
    simpa [Except.toOption] using hnone
  have happlied : shadowedPairs.takeWhile (c.Knows ·) = shadowedPairs.take 3 := by
    rw [← hlength]
    exact List.prefix_iff_eq_take.mp (List.takeWhile_prefix _)
  have hrest : shadowedPairs.dropWhile (c.Knows ·) = shadowedPairs.drop 3 := by
    have hsplit := List.takeWhile_append_dropWhile (p := (c.Knows ·)) (l := shadowedPairs)
    rw [happlied] at hsplit
    exact List.append_cancel_left (hsplit.trans (List.take_append_drop 3 shadowedPairs).symm)
  obtain ⟨out, t, hcall, -, hstop, -, hread⟩ := configure_sets_options shadowingWorld_reachable
    shadowingWorld_wellNamed hob hc hplain hcget hconfigure (by decide +kernel) shadowedPairs
    (List.cons_ne_nil _ _) hnoHook 0 0 []
  rw [hrest] at hstop
  rw [happlied] at hread
  have hout := hstop _ rfl
  subst hout
  refine ⟨t, hcall, ?_, ?_, ?_⟩
  · exact (hread (.str "-size") size hsize).1 [_, _] _ [] rfl hsize' (by simp)
  · refine (hread (.str "-ui::Base::size") base hbase').1 [_] _ [_] rfl hbase ?_
    rw [List.forall_mem_singleton]
    exact hother hsize' (by rw [hsizeFull, hbaseFull]; decide)
  · refine (hread (.str "-color") color hcolor).2 ?_
    simp only [shadowedPairs, List.take_succ_cons, List.take_zero, List.forall_mem_cons,
      List.not_mem_nil, false_implies, implies_true, and_true]
    exact ⟨hother hsize (by rw [hsizeFull, hcolorFull]; decide),
      hother hbase (by rw [hbaseFull, hcolorFull]; decide),
      hother hsize' (by rw [hsizeFull, hcolorFull]; decide)⟩

end ObjectDispatch
