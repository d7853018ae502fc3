import ObjectDispatch.Proofs.Moments

/-!
# Errors that are caught

Code can catch the error that a run has ended with.  What is done in between cannot: the
creation of an object that enters a frame for a constructor, or a deletion that enters one
for a destructor, ends with the error that the frame is left with.  So when such a task
has succeeded, its own frames have been left without an error, and whatever has failed
nevertheless has failed inside one of them, where code has caught it.

## Main definitions

* `FailedRun`, `RunFails` — a run that has failed, or that was refused.
* `IsCaught` — something has happened inside a frame that was left without an error.
* `Task.Framed` — the tasks whose code runs in frames of their own.
* `Handled` — something that has been caught if the task has succeeded.
* `OwnFramesSucceed` — the outermost frames are left without an error.

## Main results

* `Handled.part`, `Handled.frame` — what is handled in a part of a task is so in the task.
* `Course.ownFramesSucceed` — **when a task has succeeded, so have its own frames.**
-/

namespace ObjectDispatch

/-! ### Runs that fail -/

/-- What happens when the run of something in a frame fails, or when there is no room for
the frame. -/
inductive FailedRun (f : Frame) (a : Activity) : List Event → Prop
  | raised {es : List Event} (e : DispatchError) (hes : Balanced es) :
      FailedRun f a (.entered f a :: (es ++ [.left (some e)]))
  | refused : FailedRun f a [.refused f a]

/-- A frame is left with an error, or it is refused. -/
def Event.isFailure : Event → Bool
  | .left (some _) | .refused _ _ => true
  | _ => false

theorem FailedRun.exists_isFailure {f : Frame} {a : Activity} {es : List Event}
    (h : FailedRun f a es) : ∃ e ∈ es, e.isFailure = true := by
  cases h with
  | raised e _ => exact ⟨.left (some e), by simp, rfl⟩
  | refused => exact ⟨_, List.mem_cons_self, rfl⟩

/-- A run of this has ended with an error, or there was no room for its frame. -/
def RunFails (f : Frame) (a : Activity) (es : List Event) : Prop :=
  (∃ e, ⟨f, a, some e⟩ ∈ endedRuns [] es) ∨ .refused f a ∈ es

section

variable {f : Frame} {a : Activity} {w : World} {t t' : Task} {evs es fs : List Event}
  {x y : Outcome Unit}

theorem Balanced.runFails_append (hes : Balanced es) (h : RunFails f a (es ++ fs)) :
    RunFails f a es ∨ RunFails f a fs := by
  rcases h with ⟨e, hrun⟩ | hrefused
  · rw [hes.runs] at hrun
    exact (List.mem_append.mp hrun).imp (fun h => Or.inl ⟨e, h⟩) fun h => Or.inl ⟨e, h⟩
  · exact (List.mem_append.mp hrefused).imp Or.inr Or.inr

/-- Where no frame is entered or left, and none is refused, nothing fails. -/
theorem not_runFails_of_isQuiet (hquiet : ∀ e ∈ es, e.IsQuiet)
    (hadmitted : ∀ f a, .refused f a ∉ es) : ¬ RunFails f a es := by
  rintro (⟨e, hrun⟩ | hrefused)
  · rw [← List.nil_append es, endedRuns_append_of_isQuiet hquiet] at hrun
    cases hrun
  · exact hadmitted f a hrefused

/-- No task begins with a frame that is refused. -/
theorem Task.Begins.not_refused (h : t.Begins w evs t') (f : Frame) (a : Activity) :
    .refused f a ∉ evs := by
  intro hrefused
  cases h with
  | create =>
    obtain ⟨_, _, hassigned⟩ :=
      Registry.exists_of_mem_initialValues ((List.mem_cons.mp hrefused).resolve_left nofun)
    cases hassigned
  | remove => cases Undo.eq_event_of_mem hrefused
  | _ => simp at hrefused

/-- The run in a frame fails with the frame, or it is one inside. -/
theorem Course.runFails_of_frame {g : Frame} {b : Activity} (h : Course .code w es x)
    (hx : x ≠ .exhausted) (hfails : RunFails f a (.entered g b :: (es ++ x.leaving))) :
    RunFails f a es ∨ g = f ∧ b = a ∧ ∃ e, x = .failure e := by
  rcases hfails with ⟨e, hrun⟩ | hrefused
  · obtain ⟨failure, hleaving⟩ := Outcome.exists_leaving_eq hx
    rw [hleaving, endedRuns_frame_nil (h.balanced hx)] at hrun
    refine (List.mem_append.mp hrun).imp (fun h => Or.inl ⟨e, h⟩) fun hrun => ?_
    cases List.mem_singleton.mp hrun
    cases x with
    | failure e' => exact ⟨rfl, rfl, e', rfl⟩
    | _ => cases hleaving
  · exact Or.inl (Or.inr (Outcome.mem_of_mem_frame hrefused nofun nofun))

/-- The run in a frame returns, or it fails and the task with it. -/
theorem Course.run_of_frame (h : Course (.frame f a) w es x) (hx : x ≠ .exhausted) :
    (x = .value () ∧ ⟨f, a, none⟩ ∈ endedRuns [] es) ∨
      (∃ e, x = .failure e) ∧ FailedRun f a es := by
  rcases h.cases_of_frame with ⟨-, hend⟩ | ⟨rfl, rfl⟩ | ⟨inside, rfl, hcode⟩
  · exact absurd hend hx
  · exact Or.inr ⟨⟨_, rfl⟩, .refused⟩
  · have hbalanced := hcode.balanced hx
    cases x with
    | value =>
      refine Or.inl ⟨rfl, ?_⟩
      show (⟨f, a, none⟩ : EndedRun) ∈ endedRuns [] (.entered f a :: (inside ++ [.left none]))
      rw [endedRuns_frame_nil hbalanced]
      exact List.mem_append_right _ List.mem_cons_self
    | failure e => exact Or.inr ⟨⟨e, rfl⟩, .raised e hbalanced⟩
    | exhausted => exact absurd rfl hx

/-! ### What has been caught -/

/-- What `P` says of some events holds of those that have happened inside a frame, and
the frame was left without an error. -/
def IsCaught (P : World → List Event → Prop) (w : World) (es : List Event) : Prop :=
  ∃ before g b inside after, es = before ++ .entered g b :: (inside ++ .left none :: after) ∧
    Balanced inside ∧ P (w.replay (before ++ [.entered g b])) inside

/-- What holds of some events holds of all that they are a part of. -/
def Persists (P : World → List Event → Prop) : Prop :=
  ∀ {w : World} {es : List Event} (before after : List Event),
    P (w.replay before) es → P w (before ++ es ++ after)

/-- The code that is run in the task is run in frames that the task enters. -/
def Task.Framed : Task → Prop
  | .code | .chain _ => False
  | .building _ t | .guarded t _ => t.Framed
  | .seq t next => t.Framed ∧ next.Framed
  | _ => True

/-- What `P` says has been caught, or the task has not succeeded in its own frames. -/
def Handled (P : World → List Event → Prop) (t : Task) (w : World) (es : List Event)
    (x : Outcome Unit) : Prop :=
  IsCaught P w es ∨ P w es ∧ (t.Framed → x ≠ .value ())

variable {P : World → List Event → Prop}

theorem IsCaught.part (before after : List Event) (h : IsCaught P (w.replay before) es) :
    IsCaught P w (before ++ es ++ after) := by
  obtain ⟨earlier, g, b, inside, later, rfl, hinside, hP⟩ := h
  refine ⟨before ++ earlier, g, b, inside, later ++ after, by simp, hinside, ?_⟩
  rw [List.append_assoc, World.replay_append]
  exact hP

theorem IsCaught.holds (hP : Persists P) (h : IsCaught P w es) : P w es := by
  obtain ⟨before, g, b, inside, after, rfl, -, hinside⟩ := h
  have hpart := hP (before ++ [.entered g b]) (.left none :: after) hinside
  simpa using hpart

theorem Handled.holds (hP : Persists P) (h : Handled P t w es x) : P w es :=
  h.elim (·.holds hP) And.left

/-- What is handled in a task that has succeeded in its own frames was caught. -/
theorem Handled.isCaught (h : Handled P t w es (.value ())) (ht : t.Framed) : IsCaught P w es :=
  h.resolve_right fun hfailed => hfailed.2 ht rfl

/-- **What is handled in a part of a task is handled in the task**, if the part has
succeeded where the task has. -/
theorem Handled.part (hP : Persists P) (before after : List Event)
    (h : Handled P t (w.replay before) es x) (hfs : fs = before ++ es ++ after)
    (hend : t'.Framed → y = .value () → t.Framed ∧ x = .value ()) : Handled P t' w fs y := by
  subst hfs
  rcases h with hcaught | ⟨hholds, hx⟩
  · exact Or.inl (hcaught.part before after)
  · refine Or.inr ⟨hP before after hholds, fun hframed hy => ?_⟩
    obtain ⟨hpart, hvalue⟩ := hend hframed hy
    exact hx hpart hvalue

/-- Code catches errors in its frame. -/
theorem Handled.frame (hP : Persists P) (hes : x ≠ .exhausted → Balanced es)
    (h : Handled P .code (w.after (.entered f a)) es x) :
    Handled P (.frame f a) w (.entered f a :: (es ++ x.leaving)) x := by
  have hwhole : Event.entered f a :: (es ++ x.leaving) = [.entered f a] ++ es ++ x.leaving := by
    simp
  rcases h with hcaught | ⟨hholds, -⟩
  · rw [hwhole]
    exact Or.inl (hcaught.part [.entered f a] x.leaving)
  · cases x with
    | value => exact Or.inl ⟨[], f, a, es, [], rfl, hes nofun, hholds⟩
    | _ =>
      rw [hwhole]
      exact Or.inr ⟨hP [.entered f a] _ hholds, fun _ => nofun⟩

theorem Task.framed_all {ts : List Task} (h : ∀ t ∈ ts, t.Framed) : (Task.all ts).Framed :=
  Task.all_of_forall trivial And.intro h

/-- A task whose code runs in frames of its own goes on as such a task. -/
theorem Task.Begins.framed (h : t.Begins w evs t') (ht : t.Framed) : t'.Framed := by
  cases h with
  | create => exact ⟨trivial, trivial⟩
  | constructSupers => exact Task.framed_all (by simp [Task.Framed])
  | @constructor o f ob c =>
    refine ⟨?_, Task.framed_all (by simp [Task.Framed]), trivial⟩
    unfold MemberFunction.initialization
    cases f.initializer <;> trivial
  | delete => exact ⟨Task.framed_all (by simp [Task.Framed]), trivial⟩
  | chain => exact ht.elim
  | @assign o v =>
    unfold Variable.hooking
    cases v.hook with
    | none => trivial
    | some code => exact ⟨trivial, trivial⟩
  | _ => trivial

/-! ### The frames of a task that succeeds -/

/-- Of the frames that are entered on top of those that there were, each is left without an
error, and none is refused. -/
structure OwnFramesSucceed (w : World) (es : List Event) : Prop where
  left : ∀ {before after : List Event} {f : Frame} {failure : Option DispatchError},
    es = before ++ .left failure :: after →
    (w.replay before).stack.frames = f :: w.stack.frames → failure = none
  admitted : ∀ {before after : List Event} {f : Frame} {a : Activity},
    es = before ++ .refused f a :: after → (w.replay before).stack.frames ≠ w.stack.frames

theorem ownFramesSucceed_of_isQuiet (hquiet : ∀ e ∈ es, e.IsQuiet)
    (hadmitted : ∀ f a, .refused f a ∉ es) : OwnFramesSucceed w es where
  left {before after f failure} hes _ := by
    have hleft := hquiet (.left failure) (by rw [hes]; simp)
    exact hleft.elim
  admitted {before after f a} hes := (hadmitted f a (by rw [hes]; simp)).elim

theorem OwnFramesSucceed.append (h : OwnFramesSucceed w es)
    (hsame : (w.replay es).stack = w.stack) (h' : OwnFramesSucceed (w.replay es) fs) :
    OwnFramesSucceed w (es ++ fs) where
  left hes hframes := by
    rcases append_eq_append_cons hes with ⟨rest, hes⟩ | ⟨rest, rfl, hfs⟩
    · exact h.left hes hframes
    · rw [World.replay_append, ← hsame] at hframes
      exact h'.left hfs hframes
  admitted hes hframes := by
    rcases append_eq_append_cons hes with ⟨rest, hes⟩ | ⟨rest, rfl, hfs⟩
    · exact h.admitted hes hframes
    · rw [World.replay_append, ← hsame] at hframes
      exact h'.admitted hfs hframes

/-- The frames that were there when a course began are there at every moment of it. -/
theorem Course.suffix_replay (h : Course t w es x) (hx : x ≠ .exhausted) {before after : List Event}
    (hes : es = before ++ after) : w.stack.frames <:+ (w.replay before).stack.frames := by
  cases after with
  | nil =>
    rw [List.append_nil] at hes
    rw [← hes, (h.keeps hx).stack]
  | cons e after =>
    have heach := h.each_frames (List.suffix_refl _)
    rw [hes] at heach
    exact (World.each_append.mp heach).2.1

/-- A frame in which code has succeeded is left without an error. -/
theorem Course.ownFramesSucceed_of_frame
    (h : Course .code (w.after (.entered f a)) es (.value ())) :
    OwnFramesSucceed w (.entered f a :: (es ++ [.left none])) where
  left {before after g failure} hes hframes := by
    cases before with
    | nil => cases hes
    | cons e before =>
      rw [List.cons_append, List.cons.injEq] at hes
      obtain ⟨rfl, hes⟩ := hes
      rcases append_eq_append_cons hes with ⟨rest, hinside⟩ | ⟨rest, -, hlast⟩
      · -- inside, the frame that was entered is still there when another one has been left
        have hcut : es = before ++ [.left failure] ++ rest := by
          rw [hinside, List.append_assoc, List.singleton_append]
        have hsuffix := h.suffix_replay nofun hcut
        have hpopped : ((w.after (.entered f a)).replay (before ++ [.left failure])).stack.frames =
            w.stack.frames := by
          rw [World.replay_append]
          show ((w.after (.entered f a)).replay before).stack.frames.tail = _
          rw [← World.replay_cons, hframes]
          rfl
        rw [hpopped] at hsuffix
        exact absurd hsuffix.length_le (Nat.not_succ_le_self _)
      · cases rest with
        | nil =>
          obtain ⟨hleft, -⟩ := List.cons.inj hlast
          exact (Event.left.inj hleft).symm
        | cons e rest => simp at hlast
  admitted {before after g b} hes hframes := by
    cases before with
    | nil => cases hes
    | cons e before =>
      rw [List.cons_append, List.cons.injEq] at hes
      obtain ⟨rfl, hes⟩ := hes
      rcases append_eq_append_cons hes with ⟨rest, hinside⟩ | ⟨rest, -, hlast⟩
      · have hsuffix := h.suffix_replay nofun hinside
        rw [← World.replay_cons, hframes] at hsuffix
        exact absurd hsuffix.length_le (Nat.not_succ_le_self _)
      · cases rest with
        | nil => cases (List.cons.inj hlast).1
        | cons e rest => simp at hlast

/-- **When a task has succeeded, so have its own frames**: none of them was left with an
error, and none was refused. -/
theorem Course.ownFramesSucceed (h : Course t w es x) (hx : x = .value ()) (ht : t.Framed) :
    OwnFramesSucceed w es := by
  have hquiet {e : Event} (he : e.IsQuiet) (hadmitted : ∀ f a, e ≠ .refused f a) (v : World) :
      OwnFramesSucceed v [e] :=
    ownFramesSucceed_of_isQuiet (List.forall_mem_singleton.mpr he) fun f a hmem =>
      hadmitted f a (List.mem_singleton.mp hmem).symm
  induction h with
  | done | gone | notCreated =>
    exact ownFramesSucceed_of_isQuiet (fun _ => nofun) fun _ _ => List.not_mem_nil
  | begins h _ ih =>
    exact (ownFramesSucceed_of_isQuiet h.isQuiet h.not_refused).append h.keeps.stack
      (ih hx (h.framed ht))
  | frame _ h =>
    subst hx
    exact h.ownFramesSucceed_of_frame
  | @building o t w es x h ih =>
    subst hx
    have hbegun := hquiet (e := .constructionBegun o) trivial (by simp) w
    have hended := hquiet (e := .constructionEnded o) trivial (by simp)
    have hinside := (ih rfl ht).append (h.keeps nofun).stack (hended _)
    exact hbegun.append rfl hinside
  | seq h _ ih ih' => exact (ih rfl ht.1).append (h.keeps nofun).stack (ih' hx ht.2)
  | seqStop _ hstop => exact absurd hx hstop
  | guarded _ _ ih => exact ih hx ht
  | cut | refused | undone => cases hx
  | idle | plain | task | andThen | ends => exact ht.elim

end

end ObjectDispatch
