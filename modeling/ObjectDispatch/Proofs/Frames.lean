import ObjectDispatch.Proofs.Reachability

/-!
# Frames and constructions

Every frame that an evaluation enters it leaves again, and every construction
that it begins it ends, whatever ends the code in between.  So when an evaluation
has ended, with a value or with an error, the frames are those it began with,
and so are the objects under construction.  At no moment are there more frames
than the options allow.

## Main definitions

* `Run.KeepsFrames` — a run that leaves frames and constructions as they were.

## Main results

* `evaluate_keepsFrames` — every evaluation does.
* `frames_after_evaluation` — **an evaluation that ends leaves the frames and the
  constructions as they were, and stays within the limit at every moment.**
-/

namespace ObjectDispatch

namespace Run

variable {α β : Type}

/-- However the run ends, the frames are those it began with, and so are the
objects under construction. -/
def KeepsFrames (r : Run α) : Prop :=
  ∀ s, (r s).1 ≠ .exhausted →
    (r s).2.world.stack = s.world.stack ∧ (r s).2.world.building = s.world.building

theorem keepsFrames_bind {r : Run α} {f : α → Run β} (hr : r.KeepsFrames)
    (hf : ∀ a, (f a).KeepsFrames) : (r >>= f).KeepsFrames := by
  intro s
  rw [bind_apply]
  cases hrun : r s with
  | mk o t =>
    have ht := hr s
    rw [hrun] at ht
    cases o with
    | value a =>
      obtain ⟨hstack, hbuilding⟩ := ht (by simp)
      intro hend
      obtain ⟨hstack', hbuilding'⟩ := hf a t hend
      exact ⟨hstack'.trans hstack, hbuilding'.trans hbuilding⟩
    | failure e => exact fun _ => ht (by simp)
    | exhausted => exact fun hend => absurd rfl hend

theorem keepsFrames_attempt {r : Run α} (hr : r.KeepsFrames) : (attempt r).KeepsFrames := by
  intro s
  rw [attempt_apply]
  cases hrun : r s with
  | mk o t =>
    have ht := hr s
    rw [hrun] at ht
    cases o with
    | value a => exact fun _ => ht (by simp)
    | failure e => exact fun _ => ht (by simp)
    | exhausted => exact fun hend => absurd rfl hend

theorem keepsFrames_law : Run.Law KeepsFrames where
  pure _ _ _ := ⟨rfl, rfl⟩
  fail _ _ _ := ⟨rfl, rfl⟩
  exhaust _ _ := ⟨rfl, rfl⟩
  world _ _ := ⟨rfl, rfl⟩
  look g s _ := by rw [look_apply]; exact ⟨rfl, rfl⟩
  bind := keepsFrames_bind
  attempt := keepsFrames_attempt

end Run

/-! ### What enters is left, and what begins is ended -/

/-- A frame is left again however its code ends. -/
theorem enterFrame_keepsFrames {run : Code → List Value → Run Value}
    (hrun : ∀ c args, (run c args).KeepsFrames) (f : Frame) (a : Activity)
    (args : List Value) : (enterFrame run f a args).KeepsFrames := by
  intro s
  rw [enterFrame_apply]
  split
  · exact fun _ => ⟨rfl, rfl⟩
  · have hbody := hrun a.code args (s.after (.entered f a))
    cases hcode : run a.code args (s.after (.entered f a)) with
    | mk o t =>
      rw [hcode] at hbody
      -- the frame on top at the end is the one that was entered
      have hpop (hend : o ≠ .exhausted) : t.world.stack.pop = s.world.stack := by
        rw [(hbody hend).1]
        rfl
      cases o with
      | value v => exact fun _ => ⟨hpop (by simp), (hbody (by simp)).2⟩
      | failure e => exact fun _ => ⟨hpop (by simp), (hbody (by simp)).2⟩
      | exhausted => exact fun hend => absurd rfl hend

/-- A construction is ended however the constructors end. -/
theorem construction_keepsFrames {β : Type} {r : Run Unit} {k : Except DispatchError Unit → Run β}
    (hr : r.KeepsFrames) (hk : ∀ result, (k result).KeepsFrames) (o : ObjectId) :
    (do
      Run.happen (.constructionBegun o)
      let result ← Run.attempt r
      Run.happen (.constructionEnded o)
      k result).KeepsFrames := by
  intro s
  simp only [Run.bind_apply, Run.happen_apply]
  have hbody := Run.keepsFrames_attempt hr (s.after (.constructionBegun o))
  cases hattempt : Run.attempt r (s.after (.constructionBegun o)) with
  | mk out t =>
    rw [hattempt] at hbody
    cases out with
    | value result =>
      obtain ⟨hstack, hbuilding⟩ := hbody (by simp)
      -- the construction on top at the end is the one that was begun
      have htail : t.world.building.tail = s.world.building := by rw [hbuilding]; rfl
      intro hend
      obtain ⟨hstack', hbuilding'⟩ := hk result _ hend
      exact ⟨hstack'.trans hstack, hbuilding'.trans htail⟩
    | failure e =>
      -- what is attempted does not fail
      rw [Run.attempt_apply] at hattempt
      split at hattempt <;> simp at hattempt
    | exhausted => exact fun hend => absurd rfl hend

theorem keepsFrames_localLaw : LocalLaw Run.KeepsFrames where
  toLaw := Run.keepsFrames_law
  happen e he s _ := by cases e <;> first | exact ⟨rfl, rfl⟩ | exact he.elim
  defineClass d := by
    unfold defineClass
    refine Run.keepsFrames_law.bind (Run.keepsFrames_law.look _) fun c => ?_
    exact Run.keepsFrames_law.bind (fun _ _ => ⟨rfl, rfl⟩) fun _ => Run.keepsFrames_law.pure _
  enterFrame := enterFrame_keepsFrames

theorem createObject_keepsFrames {run : Code → List Value → Run Value}
    (hrun : ∀ c args, (run c args).KeepsFrames) (cls : ClassId) (name : String)
    (args : List Value) : (createObject (enterFrame run) cls name args).KeepsFrames := by
  have h := keepsFrames_localLaw
  unfold createObject
  refine h.bind (h.look _) fun c => h.bind h.world fun w => ?_
  split
  · exact h.fail _
  · split
    · exact h.fail _
    · refine h.bind (fun _ _ => ⟨rfl, rfl⟩) fun _ => ?_
      refine h.bind ((h.frameLaw hrun).assignments.initializeVariables _ _) fun _ => ?_
      refine construction_keepsFrames (h.constructClass hrun _ _ _ _) (fun result => ?_) _
      split
      · exact h.pure _
      · exact h.bind ((h.frameLaw hrun).callLaw.removeObject _) fun _ => h.fail _

/-- However an evaluation ends, the frames are those it began with, and so are the
objects under construction. -/
theorem evaluate_keepsFrames (loads frames : Nat) (e : Expr) (args : List Value) :
    (evaluate loads frames e args).KeepsFrames :=
  (keepsFrames_localLaw.toEvaluationLaw createObject_keepsFrames).evaluate loads frames e args

/-! ### The frames of an evaluation -/

/-- **An evaluation that ends leaves the frames and the constructions as they
were, and at every moment there are at most as many frames as the options
allow.**  The moments of an evaluation are the replays of what has happened so
far; an evaluation that does not end has them too. -/
theorem frames_after_evaluation {o : EngineOptions} {w : World} (hw : Session.Reachable o w)
    (loads frames : Nat) (e : Expr) (args : List Value) {out : Outcome Value} {s : State}
    (hrun : evaluate loads frames e args { world := w } = (out, s)) :
    (out ≠ .exhausted → s.world.stack = w.stack ∧ s.world.building = w.building) ∧
    s.world = w.replay s.journal.reverse ∧
    ∀ k, (w.replay (s.journal.reverse.take k)).stack.frames.length ≤ o.maxCallDepth := by
  have hkeeps := evaluate_keepsFrames loads frames e args { world := w }
  have hjournal := (evaluate_follows loads frames e args).journal w
  rw [hrun] at hkeeps hjournal
  obtain ⟨hadmitted, hreplay⟩ := hjournal
  refine ⟨hkeeps, hreplay, fun k => ?_⟩
  have hmoment := World.replay_induct
    (I := fun v => v.stack.depth ≤ v.stack.limit ∧ v.stack.limit = o.maxCallDepth)
    (fun v e hv he => ⟨Session.depth_le_after hv.1 he, (Session.limit_after v e).trans hv.2⟩)
    ⟨hw.depth_le, hw.limit_eq⟩ (hadmitted.take k)
  rw [← CallStack.depth_eq, ← hmoment.2]
  exact hmoment.1

/-- Defines a class whose constructor fails, and a class whose constructor creates
an object of the first, and creates an object of the second. -/
def nestedConstruction : Expr :=
  .sequence [
    .defineClass
      { name := "Part", members := [.ctor none (.raise .script (.const (.str "no part")))] },
    .defineClass
      { name := "Whole"
        members := [.ctor none (.create (some (.const (.str "Part"))) (.const (.str "p")) [])] },
    .create (some (.const (.str "Whole"))) (.const (.str "w")) []]

/-- The world in which the body of the second constructor begins to run. -/
def inConstructor : World :=
  (World.initial { maxCallDepth := 2 }).replay
    ((Session.step 0 (World.initial { maxCallDepth := 2 }) nestedConstruction
      ).2.journal.reverse.take 6)

theorem inConstructor_reachable : Session.Reachable { maxCallDepth := 2 } inConstructor :=
  ⟨0, _, nestedConstruction, 6, .start, rfl⟩

/-- Creates an object of the class whose constructor fails. -/
def failingCreation : Expr := .create (some (.const (.str "Part"))) (.const (.str "q")) []

/-- In the constructor there are one frame and one construction, and so there are
after the creation of a part has failed in a second frame. -/
theorem frames_after_failing_constructor :
    (inConstructor.stack.frames.length = 1 ∧ inConstructor.building = [⟨1⟩]) ∧
    (evaluate 0 2 failingCreation [] { world := inConstructor }).1 ≠ .exhausted ∧
    (evaluate 0 2 failingCreation [] { world := inConstructor }).2.world.stack =
      inConstructor.stack ∧
    (evaluate 0 2 failingCreation [] { world := inConstructor }).2.world.building =
      inConstructor.building ∧
    (inConstructor.replay ((evaluate 0 2 failingCreation [] { world := inConstructor }
      ).2.journal.reverse.take 4)).stack.frames.length = 2 ∧
    ∀ k, (inConstructor.replay ((evaluate 0 2 failingCreation [] { world := inConstructor }
      ).2.journal.reverse.take k)).stack.frames.length ≤ 2 := by
  have hend : (evaluate 0 2 failingCreation [] { world := inConstructor }).1 ≠ .exhausted := by
    decide +kernel
  obtain ⟨hkeeps, -, hmoment⟩ :=
    frames_after_evaluation inConstructor_reachable 0 2 failingCreation [] (Prod.eta _).symm
  exact ⟨by decide +kernel, hend, (hkeeps hend).1, (hkeeps hend).2, by decide +kernel, hmoment⟩

end ObjectDispatch
