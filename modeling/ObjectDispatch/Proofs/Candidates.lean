import ObjectDispatch.Proofs.Calls
import ObjectDispatch.Proofs.Installation

/-!
# The candidates of an unknown method

A call by a name that means nothing is answered with names to choose from: the public
methods of the class.  They are read off the table of names, which also holds qualified
names, functions that are not public, and functions found under a name of another.  A call
goes another way: it looks its name up and then checks who may call what it found.

Where names are words, both ways agree.  What code outside of every frame can call by an
unqualified name is what the class offers it, and nothing else.

## Main definitions

* `NameMap.Distinct` — a map in which no name has two entries.
* `Run.TurnsToBody` — a run that turns to the body of a function first of all.

## Main results

* `pairwise_sortNames` — distinct names are strictly sorted.
* `Class.mem_publicMethodNames_iff` — the names that a class offers.
* `turnsToBody_invoke_iff`, `invoke_eq_failure_iff` — how a call begins.
* `candidates_of_class` — **a class offers what can be called from outside.**
-/

namespace ObjectDispatch

/-! ### Tables without duplicates -/

namespace NameMap

variable {α : Type} {m : NameMap α} {n : String} {a : α}

/-- No name has two entries. -/
def Distinct (m : NameMap α) : Prop := (m.entries.map Prod.fst).Nodup

theorem distinct_empty : (empty : NameMap α).Distinct := List.nodup_nil

theorem Distinct.insert (hm : m.Distinct) (n : String) (a : α) : (m.insert n a).Distinct := by
  unfold Distinct NameMap.insert erase
  rw [List.map_cons, List.nodup_cons]
  refine ⟨?_, hm.sublist (List.filter_sublist.map Prod.fst)⟩
  intro hn
  obtain ⟨p, hp, rfl⟩ := List.mem_map.mp hn
  simp at hp

theorem Distinct.claim (hm : m.Distinct) (n : String) (a : α) : (m.claim n a).Distinct := by
  unfold NameMap.claim
  split
  · exact hm
  · exact hm.insert n a

/-- An entry is what is found under its name. -/
theorem Distinct.mem_entries_iff (hm : m.Distinct) : (n, a) ∈ m.entries ↔ m.find? n = some a :=
  (MemberTable.get?_eq_some_iff (t := ⟨m.entries, hm⟩)).symm

end NameMap

theorem distinct_claimFunction {t : NameMap MemberFunction} (ht : t.Distinct)
    (f : MemberFunction) : (claimFunction t f).Distinct := by
  unfold claimFunction
  split
  · exact ht
  · exact List.foldlRecOn _ _ ht fun t ht n _ => ht.claim n f

theorem Registry.Built.distinct_functionNames {o : EngineOptions} {r : Registry} (hr : r.Built o)
    {id : ClassId} {c : Class} (hc : r.get? id = some c) : c.functionNames.Distinct := by
  rw [hr.functionNames_eq hc]
  exact List.foldlRecOn _ _ NameMap.distinct_empty fun t ht f _ => distinct_claimFunction ht f

/-! ### Sorted names -/

/-- A new name put in its place keeps strictly sorted names so. -/
theorem pairwise_insertSorted {n : String} {ns : List String} (hns : ns.Pairwise (· < ·))
    (hn : n ∉ ns) : (sortNames.insertSorted n ns).Pairwise (· < ·) := by
  induction ns with
  | nil => exact List.pairwise_singleton _ n
  | cons m ms ih =>
    obtain ⟨hm, hms⟩ := List.pairwise_cons.mp hns
    rw [List.mem_cons, not_or] at hn
    unfold sortNames.insertSorted
    split
    · next hmn =>
      refine List.pairwise_cons.mpr ⟨fun k hk => ?_, ih hms hn.2⟩
      rcases List.mem_cons.mp ((sortNames.insertSorted_perm n ms).mem_iff.mp hk) with rfl | hk
      · exact hmn
      · exact hm k hk
    · next hmn =>
      have hlt : n < m := Std.lt_of_le_of_ne (String.not_lt.mp hmn) hn.1
      refine List.pairwise_cons.mpr ⟨fun k hk => ?_, hns⟩
      rcases List.mem_cons.mp hk with rfl | hk
      · exact hlt
      · exact String.lt_trans hlt (hm k hk)

/-- **Distinct names are strictly sorted.** -/
theorem pairwise_sortNames {ns : List String} (hns : ns.Nodup) :
    (sortNames ns).Pairwise (· < ·) := by
  induction ns with
  | nil => exact .nil
  | cons n ns ih =>
    obtain ⟨hn, hns⟩ := List.nodup_cons.mp hns
    exact pairwise_insertSorted (ih hns) fun h => hn ((sortNames_perm ns).mem_iff.mp h)

/-! ### What a class offers -/

section

variable {o : EngineOptions} {r : Registry} {id : ClassId} {c : Class} {n : String}

namespace Class

/-- **The names that a class offers** are those of the public functions that they mean. -/
theorem mem_publicMethodNames_iff (hc : c.functionNames.Distinct) :
    n ∈ c.publicMethodNames ↔
      ∃ f, c.resolveFunction? n = some f ∧ f.name = n ∧ f.protection = .pub := by
  unfold publicMethodNames resolveFunction?
  rw [(sortNames_perm _).mem_iff, List.mem_filterMap]
  constructor
  · rintro ⟨⟨k, f⟩, hmem, hkey⟩
    split at hkey
    · next hshown =>
      cases hkey
      exact ⟨f, hc.mem_entries_iff.mp hmem, hshown.1.symm, hshown.2⟩
    · cases hkey
  · rintro ⟨f, hf, rfl, hpub⟩
    exact ⟨(f.name, f), hc.mem_entries_iff.mpr hf, if_pos ⟨rfl, hpub⟩⟩

theorem pairwise_publicMethodNames (hc : c.functionNames.Distinct) :
    c.publicMethodNames.Pairwise (· < ·) := by
  refine pairwise_sortNames ?_
  have hkeys : c.functionNames.entries.Pairwise fun p q => p.1 ≠ q.1 := List.pairwise_map.mp hc
  refine hkeys.filterMap _ fun p q hpq k hk l hl => ?_
  split at hk <;> split at hl <;> cases hk <;> cases hl
  exact hpq

end Class

namespace Registry.Built

variable {f : MemberFunction} (hr : r.Built o) (hc : r.get? id = some c)
variable (hnames : ∀ k ∈ c.heritage, ∀ d, r.get? k = some d → d.WordNamed)

include hr hc hnames

/-- An unqualified name is the name of what it means, and the name of what a name means is
unqualified. -/
theorem name_eq_iff_of_resolveFunction? (hf : c.resolveFunction? n = some f) :
    f.name = n ↔ Name.isQualified n = false := by
  obtain ⟨-, hspelled, k, hk, d, hd, hfd⟩ := hr.exists_of_resolveFunction? hc hf
  have hwords := hnames k hk d hd
  have hword := hwords.functionNames f hfd
  constructor
  · rintro rfl
    unfold Name.isQualified
    rw [Name.afterLastMark?_eq_none hword.2]
    rfl
  · intro hn
    rw [← hr.simple_of_mem_spellings hd hwords.components hfd hword hspelled,
      Name.simple_of_not_isQualified hn]

/-- Where names are words, a class offers the unqualified names that mean public
functions. -/
theorem mem_publicMethodNames_iff : n ∈ c.publicMethodNames ↔
    Name.isQualified n = false ∧ ∃ f, c.resolveFunction? n = some f ∧ f.protection = .pub := by
  rw [Class.mem_publicMethodNames_iff (hr.distinct_functionNames hc)]
  constructor
  · rintro ⟨f, hf, hname, hpub⟩
    exact ⟨(hr.name_eq_iff_of_resolveFunction? hc hnames hf).mp hname, f, hf, hpub⟩
  · rintro ⟨hn, f, hf, hpub⟩
    exact ⟨f, hf, (hr.name_eq_iff_of_resolveFunction? hc hnames hf).mpr hn, hpub⟩

end Registry.Built

end

/-! ### How calls begin -/

/-- From the state `s` on, the run turns to the body of a function first of all: it enters
a frame for it, or has none left to enter. -/
def Run.TurnsToBody {α : Type} (r : Run α) (s : State) : Prop :=
  ∃ f fn, r.Opens s (.entered f (.body fn)) ∨ r.Opens s (.refused f (.body fn))

/-- Where the state stays as it is, no body was turned to. -/
theorem Run.not_turnsToBody_of_state {α : Type} {r : Run α} {s : State} (h : (r s).2 = s) :
    ¬ r.TurnsToBody s := by
  rintro ⟨f, fn, hopens | hopens⟩
  · exact not_opens_of_state h hopens
  · exact not_opens_of_state h hopens

section

variable {run : Code → List Value → Run Value} (hrun : ∀ c args, (run c args).Follows)
variable {s : State} {object : ObjectId} {c : Class} {n : String} {args : List Value}

include hrun

theorem turnsToBody_callMember (fn : MemberFunction) (receiver : Option ObjectId) (n : String)
    (args : List Value) : (callMember (enterFrame run) fn receiver n args).TurnsToBody s := by
  have hfirst := opens_enterFrame hrun (s := s) (fn.callFrame receiver n) (.body fn) args
  refine ⟨fn.callFrame receiver n, fn, ?_⟩
  split at hfirst
  · exact Or.inl hfirst
  · exact Or.inr hfirst

variable (htarget : s.world.classOf object = .ok c)

include htarget

/-- A call turns to a body when what its name means may be called. -/
theorem turnsToBody_invoke_iff : (invoke (enterFrame run) object n args).TurnsToBody s ↔
    ∃ fn, callable c n s.world = .ok fn := by
  unfold invoke
  constructor
  · rintro ⟨f, fn, hopens | hopens⟩
    all_goals
      simp only [Run.opens_look_bind] at hopens
      obtain ⟨c', hc', fn', hfn', -⟩ := hopens
      cases htarget.symm.trans hc'
      exact ⟨fn', hfn'⟩
  · rintro ⟨fn, hfn⟩
    obtain ⟨f, fn', hopens⟩ := turnsToBody_callMember hrun (s := s) fn
      (if fn.flags.isCommon then none else some object) n args
    refine ⟨f, fn', ?_⟩
    simp only [Run.opens_look_bind]
    exact hopens.imp (fun h => ⟨c, htarget, fn, hfn, h⟩) fun h => ⟨c, htarget, fn, hfn, h⟩

/-- A call fails at once when the look-up or the check of access does. -/
theorem invoke_eq_failure_iff {e : DispatchError} :
    invoke (enterFrame run) object n args s = (.failure e, s) ↔
      callable c n s.world = .error e := by
  have hinvoke : invoke (enterFrame run) object n args s =
      (Run.look (callable c n) >>= fun fn => callMember (enterFrame run) fn
        (if fn.flags.isCommon then none else some object) n args) s :=
    Run.look_bind_of_ok htarget
  cases hcallable : callable c n s.world with
  | ok fn =>
    have hturns : (invoke (enterFrame run) object n args).TurnsToBody s :=
      (turnsToBody_invoke_iff hrun htarget).mpr ⟨fn, hcallable⟩
    refine iff_of_false (fun h => ?_) nofun
    exact Run.not_turnsToBody_of_state (by rw [h]) hturns
  | error e' =>
    rw [hinvoke, Run.look_bind_of_error hcallable]
    simp

end

/-! ### Calls from outside -/

section

variable {w : World} {c : Class} {n : String}

/-- From outside of every frame, public functions may be called. -/
theorem callable_outside_eq_ok_iff {fn : MemberFunction} (hw : w.stack.current? = none) :
    callable c n w = .ok fn ↔ c.resolveFunction? n = some fn ∧ fn.protection = .pub := by
  rw [callable_eq_ok_iff, hw]
  refine and_congr_right fun _ => ?_
  unfold mayCall
  cases fn.protection <;> simp

/-- What is not callable is unknown, with the names that the class offers, or protected. -/
theorem cases_of_callable_error {e : DispatchError} (h : callable c n w = .error e) :
    e = .unknownMethod n c.publicMethodNames ∨ ∃ p, e = .protection n p := by
  unfold callable at h
  split at h
  · cases h
    exact Or.inl rfl
  · next fn hfn =>
    unfold checkAccess at h
    split at h
    · cases h
    · cases h
      exact Or.inr ⟨fn.protection, rfl⟩

end

/-- **A class offers what can be called from outside**, at any moment of any session, where
the names of its heritage are words.  The names that it offers are strictly sorted.  An
unqualified name is among them exactly when a call by it, on an object of the class and
from outside of every frame, turns to a body; otherwise the call fails at once, because
the name means nothing or because of its protection.  So the candidates that such a
call is answered with are exactly the unqualified names that can be called. -/
theorem candidates_of_class {o : EngineOptions} {w : World} (h : Session.Reachable o w)
    {id : ClassId} {c : Class} (hc : w.registry.get? id = some c)
    (hnames : ∀ k ∈ c.heritage, ∀ d, w.registry.get? k = some d → d.WordNamed) :
    c.publicMethodNames.Pairwise (· < ·) ∧
    ∀ (object : ObjectId) (ob : Object), w.objects.get? object = some ob → ob.cls = id →
      w.stack.current? = none →
      ∀ (loads frames : Nat) (args : List Value) (journal : List Event),
        let s : State := { world := w, journal := journal }
        let call := fun n => invoke (enterFrame (runCode loads frames)) object n args
        (∀ n, Name.isQualified n = false →
          (n ∈ c.publicMethodNames ↔ (call n).TurnsToBody s) ∧
          (n ∉ c.publicMethodNames ↔
            call n s = (.failure (.unknownMethod n c.publicMethodNames), s) ∨
              ∃ p, call n s = (.failure (.protection n p), s))) ∧
        ∀ m names, call m s = (.failure (.unknownMethod m names), s) →
          ∀ n, n ∈ names ↔ Name.isQualified n = false ∧ (call n).TurnsToBody s := by
  have hr := h.built
  refine ⟨Class.pairwise_publicMethodNames (hr.distinct_functionNames hc), ?_⟩
  rintro object ob hob rfl hw loads frames args journal s call
  have hrun := runCode_follows loads frames
  have htarget : s.world.classOf object = .ok c := World.classOf_eq hob hc
  -- the calls that turn to a body are those of public functions
  have hoffered (n : String) : n ∈ c.publicMethodNames ↔
      Name.isQualified n = false ∧ (call n).TurnsToBody s := by
    rw [hr.mem_publicMethodNames_iff hc hnames, turnsToBody_invoke_iff hrun htarget]
    simp only [s, callable_outside_eq_ok_iff hw]
  have hfails {n : String} {e : DispatchError} :
      call n s = (.failure e, s) ↔ callable c n w = .error e :=
    invoke_eq_failure_iff hrun htarget
  refine ⟨fun n hn => ⟨by rw [hoffered n, hn]; simp, ?_⟩, fun m names hm n => ?_⟩
  · rw [hoffered n, hn, turnsToBody_invoke_iff hrun htarget]
    simp only [hfails, true_and, not_exists]
    constructor
    · intro hnone
      cases hcallable : callable c n w with
      | ok fn => exact absurd hcallable (hnone fn)
      | error e =>
        rcases cases_of_callable_error hcallable with rfl | ⟨p, rfl⟩
        · exact Or.inl rfl
        · exact Or.inr ⟨p, rfl⟩
    · rintro (herror | ⟨p, herror⟩) fn hfn <;> cases herror.symm.trans hfn
  · have herror := hfails.mp hm
    rcases cases_of_callable_error herror with hnames | ⟨p, hprotection⟩
    · cases hnames
      exact hoffered n
    · cases hprotection

/-- Defines a class with two public functions and a private one, and a class that
overrides one of the two privately, and creates an object of that class. -/
def turnstile : Expr :=
  .sequence [
    .defineClass
      { name := "Gate"
        members := [.method "open" .pub (.const (.str "open")),
          .method "ring" .pub (.const (.str "ringing")),
          .method "unlock" .priv (.const (.str "unlocked"))] },
    .defineClass
      { name := "Turnstile", inherits := ["Gate"]
        members := [.method "open" .priv (.const (.str "open for one"))] },
    .create (some (.const (.str "Turnstile"))) (.const (.str "t")) []]

/-- The world after that. -/
def turnstileWorld : World := (Session.step 0 (World.initial {}) turnstile).2.world

/-- The public function is offered, and the two private ones fail with an error of
protection, although one of them overrides a public function. -/
theorem candidates_of_turnstile :
    let s : State := { world := turnstileWorld }
    let call := fun n => invoke (enterFrame (runCode 0 0)) ⟨1⟩ n []
    ∃ c, turnstileWorld.registry.get? ⟨1⟩ = some c ∧
      c.publicMethodNames = ["cget", "configure", "info", "isa", "ring"] ∧
      (call "ring").TurnsToBody s ∧ ∀ n ∈ ["open", "unlock"], ∃ e, call n s = (.failure e, s) := by
  intro s call
  have hreachable : Session.Reachable {} turnstileWorld :=
    (Session.Between.next turnstile .start (by decide +kernel)).reachable
  have hwords : ∀ d ∈ turnstileWorld.registry.classes, d.WordNamed := by decide +kernel
  have hoffered : (turnstileWorld.registry.get? ⟨1⟩).map (·.publicMethodNames) =
      some ["cget", "configure", "info", "isa", "ring"] := by
    decide +kernel
  obtain ⟨c, hc, hoffered⟩ := Option.map_eq_some_iff.mp hoffered
  have hlive : (turnstileWorld.objects.get? ⟨1⟩).map (·.cls) = some ⟨1⟩ := by decide +kernel
  obtain ⟨ob, hob, hcls⟩ := Option.map_eq_some_iff.mp hlive
  have hframes : turnstileWorld.stack.frames.length = 0 := by decide +kernel
  have houtside : turnstileWorld.stack.current? = none := by
    rw [CallStack.current?, List.length_eq_zero_iff.mp hframes, List.head?_nil]
  obtain ⟨-, hcalls⟩ := candidates_of_class hreachable hc fun k _ d hd =>
    hwords d (Registry.mem_of_get? hd)
  obtain ⟨hcalls, -⟩ := hcalls ⟨1⟩ ob hob hcls houtside 0 0 [] []
  refine ⟨c, hc, hoffered, ?_, fun n hn => ?_⟩
  · exact (hcalls "ring" (by decide)).1.mp (by rw [hoffered]; decide)
  · obtain ⟨hqualified, hmissing⟩ : Name.isQualified n = false ∧ n ∉ c.publicMethodNames := by
      rw [hoffered]
      revert n
      decide
    rcases (hcalls n hqualified).2.mp hmissing with herror | ⟨p, herror⟩
    · exact ⟨_, herror⟩
    · exact ⟨_, herror⟩

end ObjectDispatch
