import ObjectDispatch.Proofs.Installation
import ObjectDispatch.Proofs.Scopes
import ObjectDispatch.Proofs.Starts

/-!
# Chaining along a heritage

The frame of a function keeps the name by which the function was called: its own name,
that name with some of the components of its class in front, or, where code has chained
to it, its full name.  Where names are words all of these have the same simple name, and
so chaining leads to the next implementation of that name, however the function was
called, in the heritage of the class of the object.

A heritage has every class once.  A body that chains to another one hands on the place
it has come to, so bodies that chain on the same object come to the implementations of
the heritage one after the other; also to one of a class that does not inherit from the
class before it.

## Main definitions

* `Session.running` — what is running at a moment of a session.
* `lifecycleNames` — the names that functions of the lifecycle run under.
* `Session.GoesOn` — a running body has chained to another.

## Main results

* `Session.Stretch.exists_callFrame` — the frames in which functions run.
* `chain_along_heritage` — **where a running function chains to, and where those that
  keep chaining come.**
-/

namespace ObjectDispatch

/-! ### What is running -/

namespace Session

/-- What is running after an event; the innermost comes first. -/
def runningAfter (running : List (Frame × Activity)) : Event → List (Frame × Activity)
  | .entered f a => (f, a) :: running
  | .left _ => running.tail
  | _ => running

/-- What is running when the events have happened: the frames that were entered and
have not been left. -/
def running (es : List Event) : List (Frame × Activity) := es.foldl runningAfter []

/-- The frames of what is running are those of the world. -/
theorem frames_eq_running (o : EngineOptions) (es : List Event) :
    ((World.initial o).replay es).stack.frames = (running es).map (·.1) := by
  suffices h : ∀ (w : World) (rs : List (Frame × Activity)), w.stack.frames = rs.map (·.1) →
      (w.replay es).stack.frames = (es.foldl runningAfter rs).map (·.1) from h _ [] rfl
  induction es with
  | nil => exact fun _ _ h => h
  | cons e es ih =>
    intro w rs h
    refine ih (w.after e) (runningAfter rs e) ?_
    cases e with
    | entered f a => exact congrArg (f :: ·) h
    | left failure =>
      show w.stack.frames.tail = rs.tail.map (·.1)
      rw [h, List.map_tail]
    | _ => exact h

/-- The innermost of what is running has the innermost frame. -/
theorem current?_of_running (o : EngineOptions) {es : List Event} {f : Frame} {a : Activity}
    {rest : List (Frame × Activity)} (h : running es = (f, a) :: rest) :
    ((World.initial o).replay es).stack.current? = some f := by
  unfold CallStack.current?
  rw [frames_eq_running, h]
  rfl

/-- What is running has been entered. -/
theorem mem_of_mem_running {es : List Event} {f : Frame} {a : Activity}
    (h : (f, a) ∈ running es) : .entered f a ∈ es := by
  suffices hall : ∀ rs, (f, a) ∈ es.foldl runningAfter rs → (f, a) ∈ rs ∨ .entered f a ∈ es from
    (hall [] h).resolve_left List.not_mem_nil
  clear h
  induction es with
  | nil => exact fun _ h => Or.inl h
  | cons e es ih =>
    intro rs h
    rcases ih _ h with h | h
    · cases e with
      | entered g b =>
        rcases List.mem_cons.mp h with h | h
        · cases h
          exact Or.inr List.mem_cons_self
        · exact Or.inl h
      | left failure => exact Or.inl (List.mem_of_mem_tail h)
      | _ => exact Or.inl h
    · exact Or.inr (List.mem_cons_of_mem _ h)

end Session

/-! ### The frames of functions -/

/-- Functions run neither as hooks nor as expressions in a scope. -/
theorem MemberFunction.frameKind_ne (f : MemberFunction) (object : Option ObjectId) :
    ¬ (f.frameKind object = .hook ∨ f.frameKind object = .eval) := by
  unfold MemberFunction.frameKind
  repeat' split
  all_goals simp

/-- The names that functions of the lifecycle run under; one of them chains as another. -/
def lifecycleNames : List String := [constructorName, destructorName, initializerName]

/-- A function of another name takes no part in the lifecycle. -/
theorem MemberFunction.OwnedBy.flags_of_not_mem {f : MemberFunction} {k : ClassId} {cls : String}
    (hf : f.OwnedBy k cls) (hname : f.name ∉ lifecycleNames) :
    f.flags.isConstructor = false ∧ f.flags.isDestructor = false := by
  constructor
  · by_contra hctor
    rw [hf.name_of_constructor (by simpa using hctor)] at hname
    exact hname (by decide)
  · by_contra hdtor
    rw [hf.name_of_destructor (by simpa using hdtor)] at hname
    exact hname (by decide)

section

variable {o : EngineOptions} {w : World} {g : Frame} {fn : MemberFunction}

/-- What a name means is a function of its class, and the name is a spelling of it. -/
theorem Registry.Built.exists_spelled {r : Registry} (hr : r.Built o)
    (hwords : ∀ d ∈ r.classes, d.WordNamed) {k : ClassId} {c : Class} (hc : r.get? k = some c)
    {n : String} (hf : c.resolveFunction? n = some fn) :
    (∃ d, r.get? fn.owner = some d ∧ d.function? fn.name = some fn) ∧
      Name.simple n = fn.name := by
  obtain ⟨-, hspelled, _, -, d, hget, hfd⟩ := hr.exists_of_resolveFunction? hc hf
  have hformed := (hr.formed hget).functions
  have hnames := hwords d (Registry.mem_of_get? hget)
  refine ⟨⟨d, ?_, hformed.get?_eq_some_iff.mpr ⟨hfd, rfl⟩⟩, ?_⟩
  · rw [(hformed.all fn hfd).owner_eq, hr.id_eq hget]
    exact hget
  · exact hr.simple_of_mem_spellings hget hnames.components hfd (hnames.functionNames fn hfd)
      hspelled

/-- What a call starts is a function of its class, called by one of its spellings. -/
theorem Call.Starts.exists_callFrame {call : Call} (h : call.Starts w g fn) (hw : w.Sound)
    (hwords : ∀ d ∈ w.registry.classes, d.WordNamed) :
    (∃ d, w.registry.get? fn.owner = some d ∧ d.function? fn.name = some fn) ∧
      ∃ object m, g = fn.callFrame object m ∧ Name.simple m = fn.name := by
  cases call with
  | method ob n =>
    obtain ⟨-, c, hc, hfn, rfl⟩ := Call.starts_method_iff.mp h
    obtain ⟨_, -, hc⟩ := World.classOf_eq_ok_iff.mp hc
    obtain ⟨hown, hsimple⟩ := hw.built.exists_spelled hwords hc (callable_eq_ok_iff.mp hfn).1
    exact ⟨hown, _, n, rfl, hsimple⟩
  | procedure k n =>
    obtain ⟨-, c, hc, hfn, -, rfl⟩ := Call.starts_procedure_iff.mp h
    have hc := World.classAt_eq_ok_iff.mp hc
    obtain ⟨hown, hsimple⟩ := hw.built.exists_spelled hwords hc (callable_eq_ok_iff.mp hfn).1
    exact ⟨hown, _, n, rfl, hsimple⟩
  | onward =>
    obtain ⟨-, -, -, htarget, -, -, rfl⟩ := Call.starts_onward_iff.mp h
    obtain ⟨-, m, -, k, d, -, -, -, -, -, -, hd, hfd⟩ := World.exists_of_chainTarget htarget
    obtain ⟨howner, hname, howned⟩ := hw.built.function?_spec hd hfd
    rw [← hname] at hfd
    have hword := (hwords d (Registry.mem_of_get? hd)).functionNames fn
      (MemberTable.mem_toList_of_get? hfd)
    exact ⟨⟨d, howner.symm ▸ hd, hfd⟩, _, fn.fullName, rfl, howned.simple_fullName hword⟩

/-- So is what starts anywhere else, unless it is the code of a constructor or of a
destructor. -/
theorem Session.Stretch.exists_callFrame (h : Session.Stretch o w [.entered g (.body fn)])
    (hwords : ∀ d ∈ w.registry.classes, d.WordNamed) (hname : fn.name ∉ lifecycleNames)
    (hdtor : fn.flags.isDestructor = false) :
    (∃ d, w.registry.get? fn.owner = some d ∧ d.function? fn.name = some fn) ∧
      ∃ object m, g = fn.callFrame object m ∧ Name.simple m = fn.name := by
  rcases h.exists_call with ⟨call, hstarts⟩ | ⟨_, ⟨k, c, n, hn, hc, hfn, -⟩ | ⟨hother, -⟩⟩
  · exact hstarts.exists_callFrame h.sound hwords
  · obtain ⟨-, rfl, -⟩ := h.sound.built.function?_spec hc hfn
    rcases hn with hn | hn <;> simp [hn, lifecycleNames] at hname
  · rw [hdtor] at hother
    cases hother

end

/-! ### Moments of a session -/

namespace Session

variable {o : EngineOptions} {loads : Nat} {steps : List Expr} {es : List Event} {w : World}
  {g : Frame} {fn : MemberFunction} {n : String}

/-- What has been entered was entered at some moment before. -/
theorem exists_stretch_of_entered (hes : es <+: history loads (World.initial o) steps)
    (hw : w = (World.initial o).replay es) {a : Activity} (h : .entered g a ∈ es) :
    ∃ v, Stretch o v [.entered g a] ∧ (v.after (.entered g a)).LeadsTo w := by
  obtain ⟨before, after, rfl⟩ := List.append_of_mem h
  obtain ⟨later, hlater⟩ := hes
  refine ⟨(World.initial o).replay before, ⟨loads, steps, before, after ++ later, ?_, rfl⟩, ?_⟩
  · simpa using hlater.symm
  · rw [hw, World.replay_append]
    exact World.leadsTo_replay _ after

theorem reachable_of_initial (hes : es <+: history loads (World.initial o) steps)
    (hw : w = (World.initial o).replay es) : Reachable o w := by
  rw [hw]
  exact reachable_of_history .start hes

section

variable (hes : es <+: history loads (World.initial o) steps)
  (hw : w = (World.initial o).replay es) (hwords : ∀ d ∈ w.registry.classes, d.WordNamed)
  (hname : fn.name ∉ lifecycleNames) (hdtor : fn.flags.isDestructor = false)

include hes hw hwords hname hdtor

/-- A function that has been entered is one of a class, called by one of its spellings,
on no object or on one of a class that inherits from it. -/
theorem callFrame_of_entered (h : .entered g (.body fn) ∈ es) :
    (∃ d, w.registry.get? fn.owner = some d ∧ d.function? fn.name = some fn) ∧
      (∃ object m, g = fn.callFrame object m ∧ Name.simple m = fn.name) ∧
      ∀ id, g.object = some id → w.Kin id fn.owner := by
  obtain ⟨v, hv, hleads⟩ := exists_stretch_of_entered hes hw h
  have hgrows : v.registry.GrowsTo w.registry := hleads.registry
  obtain ⟨⟨d, hd, hfn⟩, object, m, hg, hm⟩ := hv.exists_callFrame
    (fun d hd => hwords d (List.IsPrefix.subset hgrows hd)) hname hdtor
  refine ⟨⟨d, hgrows.get? hd, hfn⟩, ⟨object, m, hg, hm⟩, fun id hid => ?_⟩
  -- at the moment after it was entered, the frame is in scope
  have hafter : Reachable o (v.after (.entered g (.body fn))) := by
    have hsplit : Stretch o v ([.entered g (.body fn)] ++ []) := hv
    exact hsplit.split.2.reachable
  have hscope : (v.after (.entered g (.body fn))).InScope g v.stack.frames :=
    hafter.wellScoped.frames.1
  subst hg
  rcases hscope (fun hkind => fn.frameKind_ne object (Or.inr hkind)) id hid with hkin | hconstructs
  · exact hkin.of_leadsTo hleads
  · -- only constructors and initializers construct
    refine absurd ?_ hname
    rw [← hm]
    rcases hconstructs.1 with hmember | hmember
    · rw [Option.some.inj hmember]
      decide
    · rw [Option.some.inj hmember]
      decide

/-- **Where a running function chains to**: the first implementation of its name after
its class in the heritage. -/
theorem chainTarget_of_running {rest : List (Frame × Activity)}
    (hrunning : running es = (g, .body fn) :: rest)
    (hlive : ∀ id, g.object = some id → (w.objects.get? id).isSome) :
    w.stack.current? = some g ∧ ∃ c, w.subjectClass fn.owner g.object = .ok c ∧
      fn.owner ∈ c.heritage ∧ c.heritage.Nodup ∧
      ∀ before after, c.heritage = before ++ fn.owner :: after →
        chainTarget w = .ok (w.registry.implementations fn.name after).head? := by
  have hsound := (reachable_of_initial hes hw).sound
  have hentered : .entered g (.body fn) ∈ es :=
    mem_of_mem_running (by rw [hrunning]; exact List.mem_cons_self)
  have hcurrent : w.stack.current? = some g := by
    rw [hw]
    exact current?_of_running o hrunning
  obtain ⟨⟨d, hd, -⟩, ⟨object, m, rfl, hm⟩, hkin⟩ :=
    callFrame_of_entered hes hw hwords hname hdtor hentered
  -- the class whose heritage is searched is that of the object, or the owner
  have hsubject : ∃ c, w.subjectClass fn.owner object = .ok c ∧ fn.owner ∈ c.heritage := by
    cases object with
    | none =>
      obtain ⟨c, hc, hmem⟩ := (hsound.built.isA_iff (by rw [hd]; rfl)).mpr
        (.refl : Relation.ReflTransGen w.registry.Inherits fn.owner fn.owner)
      exact ⟨c, World.classAt_eq hc, hmem⟩
    | some id =>
      obtain ⟨ob, hob⟩ := Option.isSome_iff_exists.mp (hlive id rfl)
      obtain ⟨c, hc, hmem⟩ := (hkin id rfl).2 ob hob
      exact ⟨c, World.classOf_eq hob hc, hmem⟩
  obtain ⟨c, hc, hmem⟩ := hsubject
  obtain ⟨id, hid⟩ := World.exists_get?_of_subjectClass hc
  refine ⟨hcurrent, c, hc, hmem, hsound.built.nodup_heritage hid, fun before after hheritage => ?_⟩
  -- only an initializer goes by another name when it chains
  have hchain : chainName m = fn.name := by
    unfold chainName
    rw [hm, if_neg]
    intro hinitializer
    exact hname (by rw [hinitializer]; decide)
  rw [← hchain]
  exact World.chainTarget_eq hsound hcurrent (fn.frameKind_ne object) rfl hc hheritage

end

/-! ### Bodies that keep chaining -/

/-- While the first body is running, in its frame, the second starts as what chaining
starts there. -/
def GoesOn (o : EngineOptions) (es : List Event) (a b : Frame × MemberFunction) : Prop :=
  ∃ before after rest, es = before ++ .entered b.1 (.body b.2) :: after ∧
    running before = (a.1, .body a.2) :: rest ∧
    Call.onward.Starts ((World.initial o).replay before) b.1 b.2

section

variable {id : ObjectId} {c : Class} {a b : Frame × MemberFunction}
  (hes : es <+: history loads (World.initial o) steps)
  (hw : w = (World.initial o).replay es) (hwords : ∀ d ∈ w.registry.classes, d.WordNamed)
  (hc : w.classOf id = .ok c)

include hes hw hwords hc

/-- **One step of chaining**: in the heritage of the class of the object, the body comes
to the first implementation of its name after its own class. -/
theorem GoesOn.head?_implementations (h : GoesOn o es a b) (hname : a.2.name ∉ lifecycleNames)
    (hdtor : a.2.flags.isDestructor = false) (hobject : a.1.object = some id)
    {before after : List ClassId} (hheritage : c.heritage = before ++ a.2.owner :: after) :
    (w.registry.implementations a.2.name after).head? = some b.2 := by
  have hsound := (reachable_of_initial hes hw).sound
  obtain ⟨past, later, rest, rfl, hrunning, hstarts⟩ := h
  obtain ⟨-, g, hg, htarget, -⟩ := Call.starts_onward_iff.mp hstarts
  have hpast : past <+: history loads (World.initial o) steps :=
    (List.prefix_append past _).trans hes
  have hleads : ((World.initial o).replay past).LeadsTo w := by
    rw [hw, World.replay_append]
    exact World.leadsTo_replay _ _
  have hpastSound := (reachable_of_initial hpast rfl).sound
  -- the object lives where the body chains, and is of the same class as later
  obtain ⟨ob', hob', hc'⟩ := World.classOf_eq_ok_iff.mp hc
  have hlive : (((World.initial o).replay past).objects.get? id).isSome := by
    obtain ⟨g', c', hg', hsubject, -⟩ := World.scope_mem_of_chainTarget htarget
    have hframe := current?_of_running o hrunning
    rw [Option.some.inj (hg'.symm.trans hframe), hobject] at hsubject
    obtain ⟨ob, hob, -⟩ := World.classOf_eq_ok_iff.mp hsubject
    rw [hob]
    rfl
  obtain ⟨-, c', hsubject, -, -, hchain⟩ := chainTarget_of_running hpast rfl
    (fun d hd => hwords d (List.IsPrefix.subset hleads.registry hd)) hname hdtor hrunning
    (fun id' hid' => by rw [hobject] at hid'; cases hid'; exact hlive)
  rw [hobject] at hsubject
  obtain ⟨ob, hob, hclass⟩ := World.classOf_eq_ok_iff.mp hsubject
  have hsame := hleads.classes (hpastSound.allocated id ob hob)
    (fun ob₁ hob₁ => by cases hob.symm.trans hob₁; exact hclass) ob' hob'
  cases hc'.symm.trans hsame
  rw [hchain before after hheritage] at htarget
  rw [Registry.implementations_of_growsTo _ hleads.registry]
  · exact Except.ok.inj htarget
  · intro k hk
    refine hpastSound.built.isSome_of_mem_heritage hclass k ?_
    rw [hheritage]
    exact List.mem_append_right _ (List.mem_cons_of_mem _ hk)

/-- **Bodies that keep chaining come to the implementations one after the other.**  The
induction is on the bodies; each hands on its place in the heritage. -/
theorem prefix_implementations_of_goesOn {others : List (Frame × MemberFunction)}
    (hchain : (a :: others).IsChain (GoesOn o es)) (hname : a.2.name ∉ lifecycleNames)
    (hdtor : a.2.flags.isDestructor = false)
    (hobject : ∀ v ∈ a :: others, v.1.object = some id)
    {before after : List ClassId} (hheritage : c.heritage = before ++ a.2.owner :: after) :
    others.map (·.2) <+: w.registry.implementations a.2.name after := by
  have hsound := (reachable_of_initial hes hw).sound
  induction others generalizing a before after with
  | nil => exact List.nil_prefix
  | cons b others ih =>
    obtain ⟨hstep, hrest⟩ := List.isChain_cons_cons.mp hchain
    rw [List.forall_mem_cons] at hobject
    have hhead := hstep.head?_implementations hes hw hwords hc hname hdtor hobject.1 hheritage
    obtain ⟨skipped, rest, hafter, himpl⟩ :=
      hsound.built.exists_of_head?_implementations hhead
    obtain ⟨-, d, hd, hfn⟩ :=
      hsound.built.exists_of_mem_implementations (List.mem_of_head? hhead)
    obtain ⟨-, hsame, howned⟩ := hsound.built.function?_spec hd hfn
    rw [← hsame] at hname
    have hplace : c.heritage = (before ++ a.2.owner :: skipped) ++ b.2.owner :: rest := by
      rw [hheritage, hafter]
      simp
    rw [himpl, List.map_cons, List.cons_prefix_cons, ← hsame]
    exact ⟨rfl, ih hrest hname (howned.flags_of_not_mem hname).2 hobject.2 hplace⟩

end

end Session

/-! ### The effect of chaining -/

/-- Where there is nothing to chain to, nothing else happens. -/
theorem chain_of_none {w : World} (h : chainTarget w = .ok none) (enter : Enter)
    (args : List Value) (journal : List Event) :
    chain enter args { world := w, journal := journal } =
      (.value Value.empty, { world := w, journal := .chained :: journal }) := by
  show (Run.look chainTarget >>= _) { world := w, journal := .chained :: journal } = _
  rw [Run.look_bind_of_ok h]
  rfl

/-- A function that takes no part in the lifecycle is called by its full name on the
object of the frame. -/
theorem chain_of_some {w : World} {g : Frame} (hg : w.stack.current? = some g)
    {t : MemberFunction} (h : chainTarget w = .ok (some t))
    (hctor : t.flags.isConstructor = false) (hdtor : t.flags.isDestructor = false)
    (enter : Enter) (args : List Value) (journal : List Event) :
    chain enter args { world := w, journal := journal } =
      callMember enter t (if t.flags.isCommon then none else g.object) t.fullName args
        { world := w, journal := .chained :: journal } := by
  show (Run.look chainTarget >>= _) { world := w, journal := .chained :: journal } = _
  rw [Run.look_bind_of_ok h]
  dsimp only
  rw [Run.look_bind_of_ok (World.context_eq hg)]
  dsimp only
  rw [if_neg (by simp [hctor])]
  cases g.object with
  | none => rfl
  | some o =>
    dsimp only
    rw [if_neg (by simp [hdtor])]

/-- Members of a list without repetitions that stand in its order have rising positions. -/
theorem pairwise_idxOf_of_sublist {α : Type} [BEq α] [LawfulBEq α] {l l' : List α}
    (hl : l.Nodup) (h : l'.Sublist l) : (l'.map l.idxOf).Pairwise (· < ·) := by
  have hpositions : l.map l.idxOf = List.range l.length := by
    refine List.ext_getElem (by simp) fun i hi _ => ?_
    simp [hl.idxOf_getElem]
  have hsub := h.map l.idxOf
  rw [hpositions] at hsub
  exact List.pairwise_lt_range.sublist hsub

/-- **Chaining goes along the heritage**, at every moment of every session with names
made of words, for every function `fn` of a class `k` whose name `n` is not one of the
lifecycle.  Let the body of `fn` run in the frame `g`, on a live object or on none.  In
the heritage of the class of the object, or of `k` where there is none, the class `k` has
one place; chaining leads to the first implementation of `n` after that place, and where
there is none it has the empty value and changes nothing.

Let bodies, of which that of `fn` is the first, chain one to the next, all on one object.
They belong to implementations of `n` in the heritage that follow each other without a
gap, and so the places of their classes rise. -/
theorem chain_along_heritage {o : EngineOptions} {loads : Nat} {steps : List Expr}
    {es : List Event} (hes : es <+: Session.history loads (World.initial o) steps) {w : World}
    (hw : w = (World.initial o).replay es) (hwords : ∀ d ∈ w.registry.classes, d.WordNamed)
    {k : ClassId} {d : Class} (hd : w.registry.get? k = some d) {n : String}
    {fn : MemberFunction} (hfn : d.function? n = some fn) (hn : n ∉ lifecycleNames) :
    (∀ g rest, Session.running es = (g, .body fn) :: rest →
      (∀ id, g.object = some id → (w.objects.get? id).isSome) →
      ∃ c before after, w.subjectClass k g.object = .ok c ∧ c.heritage.Nodup ∧
        c.heritage = before ++ k :: after ∧
        chainTarget w = .ok (w.registry.implementations n after).head? ∧
        ∀ (enter : Enter) args journal,
          ((w.registry.implementations n after).head? = none →
            chain enter args { world := w, journal := journal } =
              (.value Value.empty, { world := w, journal := .chained :: journal })) ∧
          ∀ t, (w.registry.implementations n after).head? = some t →
            chain enter args { world := w, journal := journal } =
              callMember enter t (if t.flags.isCommon then none else g.object) t.fullName args
                { world := w, journal := .chained :: journal }) ∧
    ∀ g others id, .entered g (.body fn) ∈ es →
      ((g, fn) :: others).IsChain (Session.GoesOn o es) →
      (∀ v ∈ (g, fn) :: others, v.1.object = some id) → (w.objects.get? id).isSome →
      ∃ c, w.classOf id = .ok c ∧
        ((g, fn) :: others).map (·.2) <:+: w.registry.implementations n c.heritage ∧
        (((g, fn) :: others).map fun v => c.heritage.idxOf v.2.owner).Pairwise (· < ·) := by
  have hsound := (Session.reachable_of_initial hes hw).sound
  obtain ⟨rfl, rfl, howned⟩ := hsound.built.function?_spec hd hfn
  have hdtor := (howned.flags_of_not_mem hn).2
  constructor
  · intro g rest hrunning hlive
    obtain ⟨hcurrent, c, hc, hmem, hnodup, hchain⟩ :=
      Session.chainTarget_of_running hes hw hwords hn hdtor hrunning hlive
    obtain ⟨before, after, hheritage⟩ := List.append_of_mem hmem
    have htarget := hchain before after hheritage
    refine ⟨c, before, after, hc, hnodup, hheritage, htarget, fun enter args journal => ⟨?_, ?_⟩⟩
    · intro hnone
      exact chain_of_none (htarget.trans (congrArg _ hnone)) enter args journal
    · intro t ht
      obtain ⟨-, d', hd', ht'⟩ :=
        hsound.built.exists_of_mem_implementations (List.mem_of_head? ht)
      obtain ⟨-, hname, howned'⟩ := hsound.built.function?_spec hd' ht'
      rw [← hname] at hn
      obtain ⟨hctor, hdtor'⟩ := howned'.flags_of_not_mem hn
      exact chain_of_some hcurrent (htarget.trans (congrArg _ ht)) hctor hdtor' enter args journal
  · intro g others id hentered hchain hobject hlive
    obtain ⟨-, -, hkin⟩ := Session.callFrame_of_entered hes hw hwords hn hdtor hentered
    obtain ⟨ob, hob⟩ := Option.isSome_iff_exists.mp hlive
    obtain ⟨c, hc, hmem⟩ :=
      (hkin id (hobject (g, fn) List.mem_cons_self)).2 ob hob
    have hclass := World.classOf_eq hob hc
    obtain ⟨before, after, hheritage⟩ := List.append_of_mem hmem
    obtain ⟨later, hlater⟩ := Session.prefix_implementations_of_goesOn hes hw hwords hclass hchain
      hn hdtor hobject hheritage
    have hrow : ((g, fn) :: others).map (·.2) <:+:
        w.registry.implementations fn.name c.heritage := by
      refine ⟨w.registry.implementations fn.name before, later, ?_⟩
      rw [hheritage, Registry.implementations_append,
        Registry.implementations_cons_of_some hd hfn, ← hlater]
      simp
    refine ⟨c, hclass, hrow, ?_⟩
    have hsub := (hrow.sublist.map (·.owner)).trans
      (hsound.built.owners_sublist fn.name c.heritage)
    have hrising := pairwise_idxOf_of_sublist (hsound.built.nodup_heritage hc) hsub
    rwa [List.map_map, List.map_map] at hrising

/-- Defines four classes, the last of which inherits from the first along two ways.  The
first three have a method that chains, and nothing else; on an object of the last, that
of the second is called. -/
def paths : List Expr :=
  [.sequence [
      .defineClass { name := "Top", members := [.method "path" .pub .chainOnward] },
      .defineClass
        { name := "Left", inherits := ["Top"], members := [.method "path" .pub .chainOnward] },
      .defineClass
        { name := "Right", inherits := ["Top"], members := [.method "path" .pub .chainOnward] },
      .defineClass { name := "Bottom", inherits := ["Left", "Right"] },
      .create (some (.const (.str "Bottom"))) (.const (.str "b")) []],
    .invoke (some (.const (.str "b"))) (.const (.str "Left::path")) []]

/-- What happens then. -/
@[irreducible] def pathsHistory : List Event := Session.history 0 (World.initial {}) paths

/-- The world when so many events have happened. -/
def pathsWorld (n : Nat) : World := (World.initial {}).replay (pathsHistory.take n)

/-- The method of a class. -/
@[irreducible] def pathOf (k : ClassId) : MemberFunction :=
  ((pathsWorld 16).registry.implementations "path" [k]).headD default

/-- The frame in which it runs on the object. -/
def pathFrame (k : ClassId) (calledAs : String) : Frame :=
  { scope := k, object := some ⟨1⟩, member := some calledAs, kind := .method }

theorem eq_pathOf {k : ClassId} {d : Class} {fn : MemberFunction}
    (hd : (pathsWorld 16).registry.get? k = some d) (hfn : d.function? "path" = some fn) :
    fn = pathOf k := by
  unfold pathOf
  rw [Registry.implementations_cons_of_some hd hfn]
  rfl

theorem exists_pathOf {k : ClassId} (hk : k ∈ [(⟨0⟩ : ClassId), ⟨1⟩, ⟨2⟩]) :
    ∃ d, (pathsWorld 16).registry.get? k = some d ∧ d.function? "path" = some (pathOf k) := by
  have hall : ∀ k ∈ [(⟨0⟩ : ClassId), ⟨1⟩, ⟨2⟩],
      (((pathsWorld 16).registry.get? k).bind (·.function? "path")).isSome := by
    decide +kernel
  obtain ⟨fn, hfn⟩ := Option.isSome_iff_exists.mp (hall k hk)
  obtain ⟨d, hd, hfn⟩ := Option.bind_eq_some_iff.mp hfn
  exact ⟨d, hd, eq_pathOf hd hfn ▸ hfn⟩

theorem take_pathsHistory (n : Nat) :
    pathsHistory.take n <+: Session.history 0 (World.initial {}) paths := by
  unfold pathsHistory
  exact List.take_prefix n _

theorem wordNamed_of_paths : ∀ d ∈ (pathsWorld 16).registry.classes, d.WordNamed := by
  decide +kernel

/-- What is entered under the name is the method of its class. -/
theorem eq_pathOf_of_entered {f : Frame} {fn : MemberFunction}
    (h : .entered f (.body fn) ∈ pathsHistory.take 16) (hname : fn.name = "path")
    (hdtor : fn.flags.isDestructor = false) : fn = pathOf fn.owner := by
  have hplain : fn.name ∉ lifecycleNames := by
    rw [hname]
    decide
  obtain ⟨⟨d, hd, hfn⟩, -⟩ := Session.callFrame_of_entered (take_pathsHistory 16)
    (w := pathsWorld 16) rfl wordNamed_of_paths hplain hdtor h
  rw [hname] at hfn
  exact eq_pathOf hd hfn

/-- What is to be seen of a start. -/
def startSeen (p : Frame × MemberFunction) : Frame × ClassId × String × Bool :=
  (p.1, p.2.owner, p.2.name, p.2.flags.isDestructor)

/-- The method that starts at a moment. -/
theorem entered_of_paths {n : Nat} (hn : n < 16) {f : Frame} {k : ClassId}
    (h : ((pathsHistory.drop n).head?.bind Event.start?).map startSeen =
      some (f, k, "path", false)) :
    ∃ after, pathsHistory.take 16 =
      pathsHistory.take n ++ .entered f (.body (pathOf k)) :: after := by
  obtain ⟨⟨f', fn⟩, hstart, hseen⟩ := Option.map_eq_some_iff.mp h
  obtain ⟨e, he, hstart⟩ := Option.bind_eq_some_iff.mp hstart
  obtain rfl := Event.eq_of_start? hstart
  simp only [startSeen, Prod.mk.injEq] at hseen
  obtain ⟨rfl, rfl, hname, hdtor⟩ := hseen
  have hsplit : pathsHistory.take 16 = pathsHistory.take n ++
      .entered f' (.body fn) :: ((pathsHistory.drop n).tail).take (15 - n) := by
    have htake : 16 = n + (15 - n + 1) := by omega
    rw [htake, List.take_add, List.eq_cons_of_mem_head? he, List.take_succ_cons]
    simp
  have hmem : .entered f' (.body fn) ∈ pathsHistory.take 16 := by
    rw [hsplit]
    exact List.mem_append_right _ List.mem_cons_self
  exact ⟨_, eq_pathOf_of_entered hmem hname hdtor ▸ hsplit⟩

/-- The method that is running at a moment. -/
theorem running_of_paths {n : Nat} (hn : n ≤ 16) {f : Frame} {k : ClassId}
    (h : ((Session.running (pathsHistory.take n)).head?.bind
      fun p => (Event.entered p.1 p.2).start?).map startSeen = some (f, k, "path", false)) :
    ∃ rest, Session.running (pathsHistory.take n) = (f, .body (pathOf k)) :: rest := by
  obtain ⟨⟨f', fn⟩, hstart, hseen⟩ := Option.map_eq_some_iff.mp h
  obtain ⟨⟨g, a⟩, hhead, hstart⟩ := Option.bind_eq_some_iff.mp hstart
  obtain ⟨rfl, rfl⟩ := Event.entered.inj (Event.eq_of_start? hstart)
  simp only [startSeen, Prod.mk.injEq] at hseen
  obtain ⟨rfl, rfl, hname, hdtor⟩ := hseen
  have hentered := Session.mem_of_mem_running (List.mem_of_head? hhead)
  have hmem : .entered g (.body fn) ∈ pathsHistory.take 16 :=
    (List.take_subset_take_left _ hn) hentered
  refine ⟨(Session.running (pathsHistory.take n)).tail, ?_⟩
  rw [← eq_pathOf_of_entered hmem hname hdtor]
  exact List.eq_cons_of_mem_head? hhead

/-- At the moment `n` the method of the class `k` runs in the frame `f` and chains to that
of `k'`, which starts in the frame `f'`. -/
def ChainsAt (n : Nat) (f : Frame) (k : ClassId) (f' : Frame) (k' : ClassId) : Prop :=
  ((Session.running (pathsHistory.take n)).head?.bind
      fun p => (Event.entered p.1 p.2).start?).map startSeen = some (f, k, "path", false) ∧
    ((pathsHistory.drop n).head?.bind Event.start?).map startSeen = some (f', k', "path", false) ∧
    (chainTarget (pathsWorld n)).toOption.join.map (fun t => (t.owner, t.name)) =
      some (k', "path") ∧
    (pathsWorld n).stack.depth < (pathsWorld n).stack.limit ∧
    (pathOf k').flags = {} ∧ f' = (pathOf k').callFrame f.object (pathOf k').fullName

instance (n : Nat) (f : Frame) (k : ClassId) (f' : Frame) (k' : ClassId) :
    Decidable (ChainsAt n f k f' k') :=
  inferInstanceAs (Decidable (_ ∧ _))

theorem ChainsAt.goesOn {n : Nat} {f f' : Frame} {k k' : ClassId} (h : ChainsAt n f k f' k')
    (hn : n < 16) :
    Session.GoesOn {} (pathsHistory.take 16) (f, pathOf k) (f', pathOf k') := by
  obtain ⟨hrunning, hentered, htarget, hroom, hflags, hf'⟩ := h
  obtain ⟨after, hafter⟩ := entered_of_paths hn hentered
  obtain ⟨rest, hrest⟩ := running_of_paths (Nat.le_of_lt hn) hrunning
  have hcurrent := Session.current?_of_running {} hrest
  refine ⟨_, after, rest, hafter, hrest,
    Call.starts_onward_iff.mpr ⟨hroom, f, hcurrent, ?_, ?_⟩⟩
  · -- what the chain leads to is the method of its class
    obtain ⟨t, ht, hseen⟩ := Option.map_eq_some_iff.mp htarget
    obtain ⟨rfl, hname⟩ := Prod.mk.inj hseen
    have hok : chainTarget (pathsWorld n) = .ok (some t) := by
      cases hchain : chainTarget (pathsWorld n) with
      | error e =>
        rw [hchain] at ht
        cases ht
      | ok t' =>
        rw [hchain] at ht
        exact congrArg Except.ok ht
    have hreachable : Session.Reachable {} (pathsWorld n) :=
      Session.reachable_of_initial (take_pathsHistory n) rfl
    obtain ⟨-, m, -, i, d, -, -, -, -, -, -, hd, hfd⟩ := World.exists_of_chainTarget hok
    obtain ⟨rfl, hname', -⟩ := hreachable.sound.built.function?_spec hd hfd
    rw [← hname', hname] at hfd
    have hleads : (pathsWorld n).LeadsTo (pathsWorld 16) := by
      unfold pathsWorld
      rw [hafter, World.replay_append]
      exact World.leadsTo_replay _ _
    rw [← eq_pathOf (hleads.registry.get? hd) hfd]
    exact hok
  · rw [hflags]
    exact ⟨rfl, Or.inl rfl, hf'⟩

/-- The method of `Left`, called by a qualified name, chains to that of `Top`, and this to
that of `Right`, from which `Top` does not inherit.  There the heritage ends. -/
theorem chain_along_paths :
    (∃ c, (pathsWorld 16).classOf ⟨1⟩ = .ok c ∧
      [pathOf ⟨1⟩, pathOf ⟨0⟩, pathOf ⟨2⟩] <:+:
        (pathsWorld 16).registry.implementations "path" c.heritage ∧
      ([⟨1⟩, ⟨0⟩, ⟨2⟩].map c.heritage.idxOf).Pairwise (· < ·)) ∧
    chainTarget (pathsWorld 16) = .ok none ∧
    ∀ enter args journal, chain enter args { world := pathsWorld 16, journal := journal } =
      (.value Value.empty, { world := pathsWorld 16, journal := .chained :: journal }) := by
  obtain ⟨d, hd, hfn⟩ := exists_pathOf (k := ⟨1⟩) (by decide)
  obtain ⟨d', hd', hfn'⟩ := exists_pathOf (k := ⟨2⟩) (by decide)
  have hlive : ((pathsWorld 16).objects.get? ⟨1⟩).isSome := by decide +kernel
  let left := pathFrame ⟨1⟩ "Left::path"
  let top := pathFrame ⟨0⟩ "::Top::path"
  let right := pathFrame ⟨2⟩ "::Right::path"
  constructor
  · obtain ⟨-, hvisits⟩ := chain_along_heritage (take_pathsHistory 16) (w := pathsWorld 16) rfl
      wordNamed_of_paths hd hfn (by decide)
    obtain ⟨after, hafter⟩ := entered_of_paths (n := 11) (f := left) (k := ⟨1⟩) (by decide)
      (by decide +kernel)
    have hentered : .entered left (.body (pathOf ⟨1⟩)) ∈ pathsHistory.take 16 := by
      rw [hafter]
      exact List.mem_append_right _ List.mem_cons_self
    have hchains : ChainsAt 13 left ⟨1⟩ top ⟨0⟩ ∧ ChainsAt 15 top ⟨0⟩ right ⟨2⟩ ∧
        (pathOf ⟨1⟩).owner = ⟨1⟩ ∧ (pathOf ⟨0⟩).owner = ⟨0⟩ ∧ (pathOf ⟨2⟩).owner = ⟨2⟩ := by
      decide +kernel
    obtain ⟨hleft, htop, howners⟩ := hchains
    obtain ⟨c, hc, hrow, hrising⟩ := hvisits left [(top, pathOf ⟨0⟩), (right, pathOf ⟨2⟩)] ⟨1⟩
      hentered (.cons_cons (hleft.goesOn (by decide))
        (.cons_cons (htop.goesOn (by decide)) (.singleton _)))
      (by simp [left, top, right, pathFrame]) hlive
    refine ⟨c, hc, hrow, ?_⟩
    simpa [howners] using hrising
  · obtain ⟨hchain, -⟩ := chain_along_heritage (take_pathsHistory 16) (w := pathsWorld 16) rfl
      wordNamed_of_paths hd' hfn' (by decide)
    obtain ⟨rest, hrunning⟩ := running_of_paths (n := 16) (f := right) (k := ⟨2⟩) (by decide)
      (by decide +kernel)
    obtain ⟨c, before, after, -, -, -, htarget, heffect⟩ := hchain _ rest hrunning
      (fun id hid => by cases hid; exact hlive)
    have hnone : (chainTarget (pathsWorld 16)).toOption.join.isNone := by decide +kernel
    rw [htarget] at hnone ⊢
    have hempty : ((pathsWorld 16).registry.implementations "path" after).head? = none :=
      Option.isNone_iff_eq_none.mp hnone
    exact ⟨congrArg _ hempty, fun enter args journal => (heffect enter args journal).1 hempty⟩

end ObjectDispatch
