import ObjectDispatch.Proofs.Conformance

/-!
# The calls that start bodies

Running code starts the body of a function in one of three ways: it calls the function
by a name on an object, it calls it by a name at class level, or it goes on to it by
chaining.  Whether a call starts a body is told here by making the call, in any world,
and looking at what happens first.

The first two look the function up and check whether the calling code may call it.
Chaining looks it up as well, but checks nothing.

## Main definitions

* `Run.Opens` — the first thing that happens in a run.
* `Call` — the calls that running code makes.
* `Call.Starts` — made in some world, a call starts the body of a function at once.

## Main results

* `Call.starts_method_iff`, `Call.starts_procedure_iff`, `Call.starts_onward_iff` —
  **what each call starts.**
* `Call.Starts.mayCall`, `Call.Starts.scope_mem` — the class of the calling code.
-/

namespace ObjectDispatch

/-! ### What happens first -/

namespace Run

variable {α β : Type} {s : State} {e e' : Event}

/-- From the state `s` on, the first thing that happens in the run is `e`. -/
def Opens (r : Run α) (s : State) (e : Event) : Prop :=
  s.journal.reverse ++ [e] <+: (r s).2.journal.reverse

/-- Where the state stays as it is, nothing happens. -/
theorem not_opens_of_state {r : Run α} (h : (r s).2 = s) : ¬ r.Opens s e := by
  intro hopens
  unfold Opens at hopens
  rw [h] at hopens
  have hlength := hopens.length_le
  simp at hlength

theorem opens_look_bind {g : World → Except DispatchError α} {f : α → Run β} :
    (look g >>= f).Opens s e ↔ ∃ a, g s.world = .ok a ∧ (f a).Opens s e := by
  cases hg : g s.world with
  | ok a => simp [Opens, look_bind_of_ok hg]
  | error e =>
    have hstate : ((look g >>= f) s).2 = s := by
      rw [look_bind_of_error hg]
    simpa using not_opens_of_state hstate

theorem opens_world_bind {f : World → Run β} :
    (world >>= f).Opens s e ↔ (f s.world).Opens s e := Iff.rfl

/-- What has happened stays in the journal. -/
theorem Follows.prefix_journal {r : Run α} (h : r.Follows) (s : State) :
    s.journal.reverse <+: (r s).2.journal.reverse := by
  obtain ⟨es, -, hend⟩ := h s
  rw [hend, State.journal_foldl_after, List.reverse_append, List.reverse_reverse]
  exact List.prefix_append _ es

/-- Only one thing happens first. -/
theorem Opens.unique {r : Run α} (h : r.Opens s e) (h' : r.Opens s e') : e = e' := by
  have hsame : s.journal.reverse ++ [e] = s.journal.reverse ++ [e'] :=
    (List.prefix_of_prefix_length_le h h' (by simp)).eq_of_length (by simp)
  simpa using hsame

theorem opens_happen_bind {f : Unit → Run α} (hf : (f ()).Follows) :
    (happen e >>= f).Opens s e' ↔ e' = e := by
  have hopens : (happen e >>= f).Opens s e := by
    have hprefix := hf.prefix_journal (s.after e)
    simpa [Opens, State.after, bind_apply] using hprefix
  constructor
  · intro h
    exact h.unique hopens
  · rintro rfl
    exact hopens

end Run

/-- Every code lets only admitted events happen. -/
theorem runCode_follows (loads frames : Nat) (c : Code) (args : List Value) :
    (runCode loads frames c args).Follows :=
  (follows_localLaw.toEvaluationLaw createObject_follows).runCode loads frames c args

section

variable {run : Code → List Value → Run Value} (hrun : ∀ c args, (run c args).Follows)
variable {s : State}

include hrun

/-- First of all a frame is entered, or refused when it does not fit on the stack. -/
theorem opens_enterFrame (f : Frame) (a : Activity) (args : List Value) :
    (enterFrame run f a args).Opens s
      (if s.world.stack.depth < s.world.stack.limit then .entered f a else .refused f a) := by
  have hlaw := Run.follows_law
  have hleft (result : Except DispatchError Value) :
      (Run.happen (.left (failure? result))).Follows := fun s => Run.followsFrom_happen trivial
  unfold enterFrame
  rw [Run.opens_world_bind]
  split
  · next e hpush =>
    have hfull : ¬ s.world.stack.depth < s.world.stack.limit := by
      intro hroom
      unfold CallStack.push at hpush
      rw [if_neg (Nat.not_le_of_lt hroom)] at hpush
      cases hpush
    exact (Run.opens_happen_bind (hlaw.fail e)).mpr (if_neg hfull)
  · next hpush =>
    have hroom := CallStack.depth_lt_of_push hpush
    refine (Run.opens_happen_bind ?_).mpr (if_pos hroom)
    exact hlaw.bind (hlaw.attempt (hrun _ _)) fun result =>
      hlaw.bind (hleft result) fun _ => hlaw.answer result

/-- A frame that fits on the stack is entered first of all. -/
theorem opens_enterFrame_iff {f g : Frame} {a b : Activity} {args : List Value} :
    (enterFrame run f a args).Opens s (.entered g b) ↔
      s.world.stack.depth < s.world.stack.limit ∧ g = f ∧ b = a := by
  have hfirst := opens_enterFrame hrun (s := s) f a args
  constructor
  · intro h
    have hsame := h.unique hfirst
    split at hsame
    · next hroom =>
      cases hsame
      exact ⟨hroom, rfl, rfl⟩
    · cases hsame
  · rintro ⟨hroom, rfl, rfl⟩
    rwa [if_pos hroom] at hfirst

/-- A function is called in a frame of its own. -/
theorem opens_callMember_iff {fn fn' : MemberFunction} {object : Option ObjectId} {n : String}
    {args : List Value} {f : Frame} :
    (callMember (enterFrame run) fn' object n args).Opens s (.entered f (.body fn)) ↔
      s.world.stack.depth < s.world.stack.limit ∧ f = fn.callFrame object n ∧ fn = fn' := by
  unfold callMember
  rw [opens_enterFrame_iff hrun, Activity.body.injEq]
  refine and_congr_right fun _ => and_congr_left ?_
  rintro rfl
  rfl

end

/-! ### Calls -/

/-- The calls that running code makes. -/
inductive Call where
  /-- A member is called by a name on an object. -/
  | method (o : ObjectId) (n : String) : Call
  /-- A member is called by a name at class level. -/
  | procedure (k : ClassId) (n : String) : Call
  /-- The running member goes on to its next more general implementation. -/
  | onward : Call
  deriving DecidableEq, Repr, Inhabited

namespace Call

/-- Making the call, where frames are entered by `enter`. -/
def run (enter : Enter) (args : List Value) : Call → Run Value
  | .method o n => invoke enter o n args
  | .procedure k n => invokeProc enter k n args
  | .onward => chain enter args

/-- The class against which the function is resolved: that of the object, the one that
is asked, or the one that the calling code is about. -/
def target (w : World) : Call → Except DispatchError Class
  | .method o _ => w.classOf o
  | .procedure k _ => w.classAt k
  | .onward => do
      let (scope, object) ← w.context
      w.subjectClass scope object

/-- What happens when the call is made, before any frame is entered. -/
def announcement : Call → List Event
  | .onward => [.chained]
  | _ => []

/-- Made in the world `w`, the call starts the body of `fn` in the frame `f`, before
anything else happens. -/
def Starts (call : Call) (w : World) (f : Frame) (fn : MemberFunction) : Prop :=
  ∃ loads frames args, call.announcement ++ [.entered f (.body fn)] <+:
    (call.run (enterFrame (runCode loads frames)) args { world := w }).2.journal.reverse

variable {w : World} {f : Frame} {fn : MemberFunction}

/-- Which bodies a call starts does not depend on how much it is granted. -/
theorem starts_iff_of {call : Call} {p : Prop}
    (h : ∀ loads frames args, call.announcement ++ [.entered f (.body fn)] <+:
      (call.run (enterFrame (runCode loads frames)) args { world := w }).2.journal.reverse ↔ p) :
    call.Starts w f fn ↔ p :=
  ⟨fun ⟨loads, frames, args, hstarts⟩ => (h loads frames args).mp hstarts,
    fun hp => ⟨0, 0, [], (h 0 0 []).mpr hp⟩⟩

/-- A call on an object starts the function that the name means in the class of the
object, if the calling code may call it. -/
theorem starts_method_iff {o : ObjectId} {n : String} :
    (Call.method o n).Starts w f fn ↔ w.stack.depth < w.stack.limit ∧
      ∃ c, w.classOf o = .ok c ∧ callable c n w = .ok fn ∧
        f = fn.callFrame (if fn.flags.isCommon then none else some o) n := by
  refine starts_iff_of fun loads frames args => ?_
  have hrun := runCode_follows loads frames
  show (invoke _ o n args).Opens { world := w } _ ↔ _
  unfold invoke
  simp only [Run.opens_look_bind, opens_callMember_iff hrun]
  constructor
  · rintro ⟨c, hc, fn', hfn, hroom, hf, rfl⟩
    exact ⟨hroom, c, hc, hfn, hf⟩
  · rintro ⟨hroom, c, hc, hfn, hf⟩
    exact ⟨c, hc, fn, hfn, hroom, hf, rfl⟩

/-- A call at class level starts the function that the name means in the class, if the
calling code may call it, and if it needs no object. -/
theorem starts_procedure_iff {k : ClassId} {n : String} :
    (Call.procedure k n).Starts w f fn ↔ w.stack.depth < w.stack.limit ∧
      ∃ c, w.classAt k = .ok c ∧ callable c n w = .ok fn ∧
        (fn.flags.isCommon = true ∨ fn.flags.isBuiltin = true) ∧ f = fn.callFrame none n := by
  refine starts_iff_of fun loads frames args => ?_
  have hrun := runCode_follows loads frames
  show (invokeProc _ k n args).Opens { world := w } _ ↔ _
  unfold invokeProc
  simp only [Run.opens_look_bind]
  constructor
  · rintro ⟨c, hc, fn', hfn, h⟩
    split at h
    · exact absurd h (Run.not_opens_of_state rfl)
    · next hkind =>
      obtain ⟨hroom, hf, rfl⟩ := (opens_callMember_iff hrun).mp h
      refine ⟨hroom, c, hc, hfn, ?_, hf⟩
      simpa [or_iff_not_imp_left] using hkind
  · rintro ⟨hroom, c, hc, hfn, hkind, hf⟩
    refine ⟨c, hc, fn, hfn, ?_⟩
    rw [if_neg (by simpa [or_iff_not_imp_left] using hkind)]
    exact (opens_callMember_iff hrun).mpr ⟨hroom, hf, rfl⟩

/-- Before any body of a constructor starts, the constructor is marked as begun. -/
theorem not_opens_runConstructor {run : Code → List Value → Run Value}
    (hrun : ∀ c args, (run c args).Follows) {s : State} {ctor : MemberFunction} {o : ObjectId}
    {args : List Value} {a : Activity} :
    ¬ (runConstructor (enterFrame run) ctor o args).Opens s (.entered f a) := by
  have hlaw := follows_localLaw
  intro h
  -- either the constructor has begun before, or the first event is the mark
  unfold runConstructor runConstructorWith at h
  obtain ⟨ob, -, h⟩ := Run.opens_look_bind.mp h
  split at h
  · exact Run.not_opens_of_state rfl h
  · rw [Run.opens_happen_bind] at h
    · cases h
    · refine hlaw.bind ((hlaw.frameLaw hrun).callLaw.runInitializer _ _ _) fun _ => ?_
      refine hlaw.bind (hlaw.look _) fun c => hlaw.bind (hlaw.forM (fun k => ?_) _) fun _ => ?_
      · exact hlaw.constructClass hrun o _ k []
      · exact enterFrame_follows hrun _ _ _

/-- Chaining starts the next more general implementation, on the object of the calling
frame if it has one, whoever may call it.  Constructors, and the destructors of an
object, are marked as begun first. -/
theorem starts_onward_iff :
    Call.onward.Starts w f fn ↔ w.stack.depth < w.stack.limit ∧
      ∃ g, w.stack.current? = some g ∧ chainTarget w = .ok (some fn) ∧
        fn.flags.isConstructor = false ∧ (fn.flags.isDestructor = false ∨ g.object = none) ∧
        f = fn.callFrame (if fn.flags.isCommon then none else g.object) fn.fullName := by
  refine starts_iff_of fun loads frames args => ?_
  have hrun := runCode_follows loads frames
  show (Run.look chainTarget >>= _).Opens { world := w, journal := [.chained] } _ ↔ _
  rw [Run.opens_look_bind]
  constructor
  · rintro ⟨target, htarget, h⟩
    cases target with
    | none => exact absurd h (Run.not_opens_of_state rfl)
    | some fn' =>
      obtain ⟨g, -, -, -, -, hg, -⟩ := World.exists_of_chainTarget htarget
      obtain ⟨⟨k, object⟩, hcontext, h⟩ := Run.opens_look_bind.mp h
      rw [World.context_eq hg] at hcontext
      cases hcontext
      -- what is left is to see which of the branches can begin with a frame
      suffices honward : fn'.flags.isConstructor = false ∧
          (fn'.flags.isDestructor = false ∨ g.object = none) ∧
          (callMember (enterFrame (runCode loads frames)) fn'
            (if fn'.flags.isCommon then none else g.object) fn'.fullName args).Opens
            { world := w, journal := [.chained] } (.entered f (.body fn)) by
        obtain ⟨hctor, hdtor, h⟩ := honward
        obtain ⟨hroom, hf, rfl⟩ := (opens_callMember_iff hrun).mp h
        exact ⟨hroom, g, hg, htarget, hctor, hdtor, hf⟩
      dsimp only at h
      split at h
      · -- a constructor is marked before it runs
        rw [Run.opens_world_bind] at h
        split at h
        · exact absurd h (Run.not_opens_of_state rfl)
        · exact absurd h (not_opens_runConstructor hrun)
      · next hctor =>
        have hctor : fn'.flags.isConstructor = false := by simpa using hctor
        split at h
        · split at h
          · -- so is a destructor
            obtain ⟨ob, -, h⟩ := Run.opens_look_bind.mp h
            split at h
            · exact absurd h (Run.not_opens_of_state rfl)
            · rw [Run.opens_happen_bind (enterFrame_follows hrun _ _ _)] at h
              cases h
          · next hdtor => exact ⟨hctor, Or.inl (by simpa using hdtor), h⟩
        · next hnone => exact ⟨hctor, Or.inr hnone, h⟩
  · rintro ⟨hroom, g, hg, htarget, hctor, hdtor, hf⟩
    refine ⟨some fn, htarget, Run.opens_look_bind.mpr ⟨_, World.context_eq hg, ?_⟩⟩
    dsimp only
    rw [if_neg (by simp [hctor])]
    split
    · next o ho =>
      rw [ho] at hdtor
      rw [if_neg (by simpa using hdtor)]
      exact (opens_callMember_iff hrun).mpr ⟨hroom, hf, rfl⟩
    · exact (opens_callMember_iff hrun).mpr ⟨hroom, hf, rfl⟩

/-! ### The calling code -/

/-- What a call by a name starts, the calling code may call. -/
theorem Starts.mayCall {call : Call} (h : call.Starts w f fn) (hcall : call ≠ .onward) :
    ∃ c, call.target w = .ok c ∧ ObjectDispatch.mayCall (w.stack.current?.map (·.scope)) fn c := by
  cases call with
  | method o n =>
    obtain ⟨-, c, hc, hfn, -⟩ := starts_method_iff.mp h
    exact ⟨c, hc, (callable_eq_ok_iff.mp hfn).2⟩
  | procedure k n =>
    obtain ⟨-, c, hc, hfn, -⟩ := starts_procedure_iff.mp h
    exact ⟨c, hc, (callable_eq_ok_iff.mp hfn).2⟩
  | onward => exact absurd rfl hcall

/-- Code that chains belongs to the heritage of the class that it is about. -/
theorem Starts.scope_mem (h : Call.onward.Starts w f fn) :
    ∃ c g, Call.onward.target w = .ok c ∧ w.stack.current? = some g ∧ g.scope ∈ c.heritage := by
  obtain ⟨-, -, -, htarget, -⟩ := starts_onward_iff.mp h
  obtain ⟨g, c, hg, hc, hscope⟩ := World.scope_mem_of_chainTarget htarget
  refine ⟨c, g, ?_, hg, hscope⟩
  unfold target
  rw [World.context_eq hg]
  exact hc

end Call

/-- What a protected function asks of the calling code. -/
theorem exists_of_mayCall_protected {fn : MemberFunction} {c : Class} {caller : Option Frame}
    (h : mayCall (caller.map (·.scope)) fn c = true) (hprot : fn.protection = .prot) :
    ∃ g, caller = some g ∧ g.scope ∈ c.heritage := by
  unfold mayCall at h
  rw [hprot] at h
  cases caller with
  | none => cases h
  | some g => exact ⟨g, rfl, List.contains_iff_mem.mp h⟩

/-- What a private function asks of the calling code. -/
theorem exists_of_mayCall_private {fn : MemberFunction} {c : Class} {caller : Option Frame}
    (h : mayCall (caller.map (·.scope)) fn c = true) (hpriv : fn.protection = .priv) :
    ∃ g, caller = some g ∧ g.scope = fn.owner := by
  unfold mayCall at h
  rw [hpriv] at h
  obtain ⟨g, hg, howner⟩ := Option.map_eq_some_iff.mp (of_decide_eq_true h)
  exact ⟨g, hg, howner⟩

end ObjectDispatch
