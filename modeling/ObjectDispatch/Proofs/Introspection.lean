import ObjectDispatch.Proofs.Installation
import ObjectDispatch.Proofs.OptionReports
import ObjectDispatch.Proofs.Registration

/-!
# Classes described at class level

`info` describes the class of the object it is called on.  At class level there is no
object, and it describes the class of its frame.  A function runs in the scope of the
class that owns it, so a class that inherits `info` is not described by what it answers
at class level: its owner is.

What a name means is the first function of a heritage that has it among its spellings.
The owner of that function comes first in its own heritage, so the name means the same
function there, and an object of the owner gives the same description.

## Main definitions

* `World.DescribesAlike` — the class and the object give the same answer.

## Main results

* `Class.resolveFunction?_owner` — what a name means, it means to the owner.
* `outcome_of_info` — the answer of `info`, in any frame.
* `descriptions_at_class_level` — **which objects are described as the class is.**
-/

namespace ObjectDispatch

variable {o : EngineOptions} {r : Registry} {w : World} {s : State} {id : ClassId} {c d : Class}
variable {f : MemberFunction} {loads frames : Nat}

/-! ### The owner of a function -/

/-- What is found in lists put together, and is in only one of them, is found there. -/
theorem find?_of_find?_append {α : Type} {p : α → Bool} {before as after : List α} {a : α}
    (h : (before ++ as ++ after).find? p = some a) (hbefore : a ∉ before) (has : a ∈ as) :
    as.find? p = some a := by
  have hp := List.find?_some h
  obtain ⟨x, hx⟩ : ∃ x, as.find? p = some x :=
    Option.isSome_iff_exists.mp (List.find?_isSome.mpr ⟨a, has, hp⟩)
  have hnone : before.find? p = none := by
    cases hfirst : before.find? p with
    | none => rfl
    | some y =>
      -- it would be found first
      rw [List.append_assoc, List.find?_append, hfirst, Option.some_or] at h
      cases h
      exact absurd (List.mem_of_find?_eq_some hfirst) hbefore
  rw [List.append_assoc, List.find?_append, hnone, Option.none_or, List.find?_append, hx,
    Option.some_or] at h
  rw [hx, h]

/-- The functions of a class come first among those of its heritage. -/
theorem Registry.Built.exists_functionsOf_eq (hr : r.Built o) (hd : r.get? id = some d) :
    ∃ inherited, r.functionsOf d = d.functions.toList ++ inherited := by
  unfold Registry.functionsOf
  rw [hr.heritage_eq hd, List.eraseDups_cons, List.filterMap_cons, hd]
  exact ⟨_, List.flatMap_cons⟩

/-- **What a name means, it means to the owner** as well. -/
theorem Class.resolveFunction?_owner (hr : r.Built o) (hc : r.get? id = some c) {n : String}
    (hf : c.resolveFunction? n = some f) :
    f.owner ∈ c.heritage ∧
      ∃ d, r.get? f.owner = some d ∧ f ∈ d.functions.toList ∧ d.resolveFunction? n = some f := by
  obtain ⟨-, -, k, hk, d, hd, hfd⟩ := hr.exists_of_resolveFunction? hc hf
  have howner {k : ClassId} {d : Class} (hd : r.get? k = some d) {g : MemberFunction}
      (hg : g ∈ d.functions.toList) : g.owner = k := by
    rw [((hr.formed hd).functions.all g hg).owner_eq, hr.id_eq hd]
  have hfk := howner hd hfd
  subst hfk
  -- the functions of the owner are a later part of those of the class
  refine ⟨hk, d, hd, hfd, ?_⟩
  obtain ⟨before, after, hheritage⟩ := List.append_of_mem hk
  have hnodup := hr.nodup_heritage hc
  rw [hheritage] at hnodup
  have hfunctions : r.functionsOf c =
      (before.filterMap r.get?).flatMap (·.functions.toList) ++ d.functions.toList ++
        (after.filterMap r.get?).flatMap (·.functions.toList) := by
    unfold Registry.functionsOf
    rw [hheritage, List.filterMap_append, List.flatMap_append, List.filterMap_cons, hd,
      List.flatMap_cons, List.append_assoc]
  have hbefore : f ∉ (before.filterMap r.get?).flatMap (·.functions.toList) := by
    intro hmem
    obtain ⟨e, he, hfe⟩ := List.mem_flatMap.mp hmem
    obtain ⟨j, hj, he⟩ := List.mem_filterMap.mp he
    have hne := (List.nodup_append.mp hnodup).2.2 j hj f.owner List.mem_cons_self
    exact hne (howner he hfe).symm
  rw [resolveFunction?_eq_find? hr hc, hfunctions] at hf
  obtain ⟨inherited, hinherited⟩ := hr.exists_functionsOf_eq hd
  rw [resolveFunction?_eq_find? hr hd, hinherited, List.find?_append,
    find?_of_find?_append hf hbefore hfd, Option.some_or]

/-! ### Answers -/

/-- What a call of `info` with one topic comes to when it describes the class `c`, where
`frames` further frames are granted. -/
def World.described (w : World) (frames : Nat) (c : Class) (topic : Value) : Outcome Value :=
  if w.stack.limit ≤ w.stack.depth then .failure (.usage .tooDeep)
  else if frames = 0 then .exhausted
  else (Run.answer (w.infoTopic c none topic.text []) { world := w }).1

/-- Where a frame fits, descriptions of different classes differ. -/
theorem World.eq_of_described_eq (hr : w.registry.Built o) {k : ClassId}
    (hc : w.registry.get? id = some c) (hd : w.registry.get? k = some d)
    (hroom : w.stack.depth < w.stack.limit)
    (h : w.described (frames + 1) c (.str "class") = w.described (frames + 1) d (.str "class")) :
    id = k := by
  have hclass (c : Class) :
      w.described (frames + 1) c (.str "class") = .value (.str c.fullName) := by
    unfold described
    rw [if_neg (Nat.not_le_of_lt hroom), if_neg (Nat.succ_ne_zero frames)]
    rfl
  rw [hclass c, hclass d, Outcome.value.injEq, Value.str.injEq] at h
  exact hr.eq_of_fullName_eq hc hd h

/-- **The answer of `info`**, in the frame that is entered for it: the class described is
that of the object of the frame, and without an object that in whose scope it runs. -/
theorem outcome_of_info {g : Frame} (hbody : f.body = .builtin .info)
    (hsubject : w.subjectClass g.scope g.object = .ok c) (topic : Value) :
    (enterFrame (runCode loads frames) g (.body f) [topic] { world := w }).1 =
      w.described frames c topic := by
  unfold World.described
  rw [enterFrame_apply]
  split
  · rfl
  · cases frames with
    | zero => rfl
    | succ frames =>
      have hinfo : (State.after { world := w } (.entered g (.body f))).world.info [topic] =
          w.infoTopic c none topic.text [] := by
        show (do
          let c ← w.subjectClass g.scope g.object
          w.infoTopic c g.object topic.text []) = _
        rw [hsubject]
        rfl
      have hcode : runCode loads (frames + 1) (Activity.body f).code [topic] =
          Run.look (·.info [topic]) := by
        show runCode loads (frames + 1) f.body [topic] = _
        rw [hbody]
        rfl
      rw [hcode, Run.look_apply, hinfo, if_neg (Nat.succ_ne_zero frames)]
      cases w.infoTopic c none topic.text [] <;> rfl

section

variable (hr : w.registry.Built o) (hc : w.registry.get? id = some c)
variable (hf : c.resolveFunction? "info" = some f) (hbody : f.body = .builtin .info)

include hr hc hf hbody

/-- On an object, the class of the object is described. -/
theorem outcome_of_invoke_info {object : ObjectId} {ob : Object}
    (hob : w.objects.get? object = some ob) (hcls : ob.cls = id) (topic : Value) :
    (invoke (enterFrame (runCode loads frames)) object "info" [topic] { world := w }).1 =
      w.described frames c topic := by
  subst hcls
  have hcall := invoke_builtin_eq (s := { world := w }) (b := .info) hob hc hf
    (hr.of_body_eq_builtin hc hf hbody) (enterFrame (runCode loads frames)) [topic]
  exact (congrArg Prod.fst hcall).trans (outcome_of_info (g := builtinFrame f object .info) hbody
    (World.classOf_eq hob hc) topic)

/-- At class level, the owner of the method is described. -/
theorem outcome_of_invokeProc_info (hd : w.registry.get? f.owner = some d) (topic : Value) :
    (invokeProc (enterFrame (runCode loads frames)) id "info" [topic] { world := w }).1 =
      w.described frames d topic := by
  obtain ⟨hpub, hflags⟩ := hr.of_body_eq_builtin hc hf hbody
  have hcallable : callable c "info" w = .ok f := by
    simp only [callable, hf, checkAccess, mayCall, hpub]
    rfl
  have hcall : invokeProc (enterFrame (runCode loads frames)) id "info" [topic] { world := w } =
      enterFrame (runCode loads frames)
        { scope := f.owner, object := none, member := some "info", kind := .builtin } (.body f)
        [topic] { world := w } := by
    unfold invokeProc
    rw [Run.look_bind_of_ok (World.classAt_eq hc), Run.look_bind_of_ok hcallable]
    simp [callMember, MemberFunction.frameKind, hflags]
  rw [hcall]
  exact outcome_of_info (g := { scope := f.owner, object := none, member := _, kind := _ }) hbody
    (World.classAt_eq hd) topic

end

/-- Asked for the topic at class level, the class gives the same answer as the object. -/
def World.DescribesAlike (w : World) (loads frames : Nat) (id : ClassId) (object : ObjectId)
    (topic : Value) : Prop :=
  (invokeProc (enterFrame (runCode loads frames)) id "info" [topic] { world := w }).1 =
    (invoke (enterFrame (runCode loads frames)) object "info" [topic] { world := w }).1

/-- **Which objects are described as the class is** when it is asked at class level, at any
moment of any session: those of the class that owns the method.  So the class itself is
described where it owns the method, and only there. -/
theorem descriptions_at_class_level (hw : Session.Reachable o w)
    (hc : w.registry.get? id = some c) (hinfo : c.HasBuiltin .info)
    (hf : c.resolveFunction? "info" = some f) {object : ObjectId} {ob : Object}
    (hob : w.objects.get? object = some ob) :
    (ob.cls = f.owner → ∀ loads frames topic, w.DescribesAlike loads frames id object topic) ∧
      (ob.cls = id → w.stack.depth < w.stack.limit → ∀ loads frames,
        ((∀ topic, w.DescribesAlike loads (frames + 1) id object topic) ↔ f.owner = id)) := by
  have hr : w.registry.Built o := hw.options_eq ▸ hw.sound.built
  obtain ⟨f', hf', hbody⟩ := hinfo.exists_body_eq
  cases hf.symm.trans hf'
  obtain ⟨-, d, hd, -, hfd⟩ := Class.resolveFunction?_owner hr hc hf
  have howned (hcls : ob.cls = f.owner) (loads frames : Nat) (topic : Value) :
      w.DescribesAlike loads frames id object topic :=
    (outcome_of_invokeProc_info hr hc hf hbody hd topic).trans
      (outcome_of_invoke_info hr hd hfd hbody hob hcls topic).symm
  refine ⟨howned, fun hcls hroom loads frames => ⟨fun halike => ?_, fun howner => ?_⟩⟩
  · have hanswers : w.described (frames + 1) d (.str "class") =
        w.described (frames + 1) c (.str "class") :=
      (outcome_of_invokeProc_info hr hc hf hbody hd _).symm.trans
        ((halike (.str "class")).trans (outcome_of_invoke_info hr hc hf hbody hob hcls _))
    exact World.eq_of_described_eq hr hd hc hroom hanswers
  · exact howned (hcls.trans howner.symm) loads (frames + 1)

/-- Defines a class and one that inherits from it, and creates an object of each. -/
def figures : Expr :=
  .sequence [
    .defineClass { name := "Figure" },
    .defineClass { name := "Square", inherits := ["Figure"] },
    .create (some (.const (.str "Figure"))) (.const (.str "f")) [],
    .create (some (.const (.str "Square"))) (.const (.str "s")) []]

/-- The world after the two classes are defined and the objects created. -/
def figuresWorld : World := (Session.step 0 (World.initial {}) figures).2.world

theorem figuresWorld_reachable : Session.Reachable {} figuresWorld :=
  (Session.Between.next figures .start (by decide +kernel)).reachable

/-- The class that inherits `info` is described as an object of the other class is, and
not as its own object. -/
theorem descriptions_of_figures :
    (∀ loads frames topic, figuresWorld.DescribesAlike loads frames ⟨1⟩ ⟨1⟩ topic) ∧
      ¬ ∀ topic, figuresWorld.DescribesAlike 0 1 ⟨1⟩ ⟨2⟩ topic := by
  have hclass : (figuresWorld.registry.get? ⟨1⟩).map (fun c =>
      (decide (c.HasBuiltin .info), (c.resolveFunction? "info").map (·.owner))) =
      some (true, some ⟨0⟩) := by
    decide +kernel
  obtain ⟨c, hc, hparts⟩ := Option.map_eq_some_iff.mp hclass
  simp only [Prod.mk.injEq, decide_eq_true_eq, Option.map_eq_some_iff] at hparts
  obtain ⟨hinfo, f, hf, howner⟩ := hparts
  have hobject (n : Nat) (k : ClassId)
      (h : (figuresWorld.objects.get? ⟨n⟩).map (·.cls) = some k) :
      ∃ ob, figuresWorld.objects.get? ⟨n⟩ = some ob ∧ ob.cls = k :=
    Option.map_eq_some_iff.mp h
  obtain ⟨ob, hob, hcls⟩ := hobject 1 ⟨0⟩ (by decide +kernel)
  obtain ⟨ob', hob', hcls'⟩ := hobject 2 ⟨1⟩ (by decide +kernel)
  constructor
  · exact (descriptions_at_class_level figuresWorld_reachable hc hinfo hf hob).1
      (hcls.trans howner.symm)
  · intro halike
    have hsame := (descriptions_at_class_level figuresWorld_reachable hc hinfo hf hob').2
      hcls' (by decide +kernel) 0 0
    rw [hsame, howner] at halike
    exact absurd halike (by decide)

/-- The text of the value with which a run ended, if it ended with one. -/
def Outcome.text? : Outcome Value → Option String
  | .value v => some v.text
  | _ => none

/-- **A class that inherits `info` is not described** by what it answers at class level. -/
theorem exists_description_of_another :
    ¬ ∀ (o : EngineOptions) (w : World) (id : ClassId) (c : Class) (object : ObjectId)
      (ob : Object), Session.Reachable o w → w.registry.get? id = some c → c.HasBuiltin .info →
      w.objects.get? object = some ob → ob.cls = id → ∀ loads frames,
      w.DescribesAlike loads frames id object (.str "class") := by
  intro h
  have hclass : (figuresWorld.registry.get? ⟨1⟩).map (fun c => decide (c.HasBuiltin .info)) =
      some true := by
    decide +kernel
  have hobject : (figuresWorld.objects.get? ⟨2⟩).map (·.cls) = some ⟨1⟩ := by decide +kernel
  obtain ⟨c, hc, hinfo⟩ := Option.map_eq_some_iff.mp hclass
  obtain ⟨ob, hob, hcls⟩ := Option.map_eq_some_iff.mp hobject
  have halike := congrArg Outcome.text? (h {} figuresWorld ⟨1⟩ c ⟨2⟩ ob figuresWorld_reachable hc
    (of_decide_eq_true hinfo) hob hcls 0 1)
  have hprocedure : (invokeProc (enterFrame (runCode 0 1)) ⟨1⟩ "info" [.str "class"]
      { world := figuresWorld }).1.text? = some "::Figure" := by
    decide +kernel
  have hmethod : (invoke (enterFrame (runCode 0 1)) ⟨2⟩ "info" [.str "class"]
      { world := figuresWorld }).1.text? = some "::Square" := by
    decide +kernel
  rw [hprocedure, hmethod] at halike
  exact absurd halike (by decide)

end ObjectDispatch
