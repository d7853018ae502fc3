import ObjectDispatch.Proofs.EndedRuns

/-!
# Up to a moment

What has happened up to the moment at which a frame is entered is the beginning of a
course, and itself a course: one that was cut there.  So what is shown of courses,
also of those that do not end, holds at every such moment.  And at such a moment it is
known which tasks are going on: the frame is entered on behalf of one that another one
has set going, and so on up to the first.

## Main definitions

* `Enters` — a task comes to enter a frame.
* `EndsWithin` — what has ended in a part of what has happened.

## Main results

* `Course.enters` — how a course comes to enter a frame.
* `Enters.course` — what has happened until a frame is entered is a course.
* `Course.endedRuns_eq` — a course leaves no frames but those that it has entered.
-/

namespace ObjectDispatch

section

variable {t : Task} {w : World} {es fs : List Event} {x : Outcome Unit} {f : Frame} {a : Activity}

/-! ### Courses that are cut -/

/-- Where two sequences of events meet, an event is of the first or of the second. -/
theorem append_eq_append_cons {before after : List Event} {e : Event}
    (h : es ++ fs = before ++ e :: after) :
    (∃ rest, es = before ++ e :: rest) ∨ ∃ rest, before = es ++ rest ∧ fs = rest ++ e :: after := by
  rcases List.append_eq_append_iff.mp h with ⟨rest, hbefore, hfs⟩ | ⟨rest, hes, hafter⟩
  · exact Or.inr ⟨rest, hbefore, hfs⟩
  · cases rest with
    | nil =>
      rw [List.append_nil] at hes
      exact Or.inr ⟨[], by rw [hes, List.append_nil], hafter.symm⟩
    | cons e' rest =>
      obtain ⟨rfl, -⟩ := List.cons.inj hafter
      exact Or.inl ⟨rest, hes⟩

theorem Event.IsQuiet.ne_entered {e : Event} (he : e.IsQuiet) (f : Frame) (a : Activity) :
    e ≠ .entered f a := by
  rintro rfl
  exact he

variable (f a) in
/-- Performing the task from the world `w` on, the frame `f` is entered to run `a` after
these events.  Whatever the task has begun and not ended by then is going on. -/
inductive Enters : Task → World → List Event → Prop
  | entry {w : World} (hroom : w.stack.depth < w.stack.limit) : Enters (.frame f a) w []
  | inside {g : Frame} {b : Activity} {w : World} {es : List Event}
      (hroom : w.stack.depth < w.stack.limit) (h : Enters .code (w.after (.entered g b)) es) :
      Enters (.frame g b) w (.entered g b :: es)
  | begins {t t' : Task} {w : World} {evs es : List Event} (h : t.Begins w evs t')
      (h' : Enters t' (w.replay evs) es) : Enters t w (evs ++ es)
  | building {o : ObjectId} {t : Task} {w : World} {es : List Event}
      (h : Enters t (w.after (.constructionBegun o)) es) :
      Enters (.building o t) w (.constructionBegun o :: es)
  | first {t next : Task} {w : World} {es : List Event} (h : Enters t w es) :
      Enters (.seq t next) w es
  | second {t next : Task} {w : World} {es fs : List Event} (h : Course t w es (.value ()))
      (h' : Enters next (w.replay es) fs) : Enters (.seq t next) w (es ++ fs)
  | guarded {t : Task} {u : Undo} {w : World} {es : List Event} (h : Enters t w es) :
      Enters (.guarded t u) w es
  | task {t : Task} {w : World} {es : List Event} (ht : w.Available t) (h : Enters t w es) :
      Enters .code w es
  | later {w : World} {es fs : List Event} (h : Course .code w es (.value ()))
      (h' : Enters .code (w.replay es) fs) : Enters .code w (es ++ fs)

/-- **How a course comes to enter a frame.**  The induction is on the course; where a task
has parts, the frame is entered in one of them, and the parts after it have not begun. -/
theorem Course.enters (h : Course t w es x) {before after : List Event}
    (hes : es = before ++ .entered f a :: after) : Enters f a t w before := by
  induction h generalizing before after with
  | cut | done | gone | notCreated | idle => simp at hes
  | @begins t t' w evs es x h _ ih =>
    rcases append_eq_append_cons hes with ⟨rest, rfl⟩ | ⟨rest, rfl, rfl⟩
    · exact absurd rfl ((h.isQuiet _ (by simp)).ne_entered f a)
    · exact .begins h (ih rfl)
  | refused => cases before <;> simp at hes
  | @frame w g b es x hroom _ ih =>
    cases before with
    | nil =>
      obtain ⟨⟨rfl, rfl⟩, -⟩ := List.cons.inj hes |>.imp Event.entered.inj id
      exact .entry hroom
    | cons e before =>
      rw [List.cons_append, List.cons.injEq] at hes
      obtain ⟨rfl, hes⟩ := hes
      rcases append_eq_append_cons hes with ⟨rest, rfl⟩ | ⟨rest, -, hleaving⟩
      · exact .inside hroom (ih rfl)
      · obtain ⟨_, hleft⟩ : ∃ failure, Event.entered f a = .left failure :=
          Outcome.exists_of_mem_leaving (by rw [hleaving]; simp)
        cases hleft
  | @building o t w es x _ ih =>
    cases before with
    | nil => cases (List.cons.inj hes).1
    | cons e before =>
      rw [List.cons_append, List.cons.injEq] at hes
      obtain ⟨rfl, hes⟩ := hes
      rcases append_eq_append_cons hes with ⟨rest, rfl⟩ | ⟨rest, -, hclosing⟩
      · exact .building (ih rfl)
      · cases Outcome.eq_of_mem_closing (o := o) (e := .entered f a) (by rw [hclosing]; simp)
  | seq h _ ih ih' =>
    rcases append_eq_append_cons hes with ⟨rest, rfl⟩ | ⟨rest, rfl, rfl⟩
    · exact .first (ih rfl)
    · exact .second h (ih' rfl)
  | seqStop _ _ ih => exact .first (ih hes)
  | guarded _ _ ih => exact .guarded (ih hes)
  | @undone t u w es e e' _ ih =>
    rcases append_eq_append_cons hes with ⟨rest, rfl⟩ | ⟨rest, rfl, hundone⟩
    · exact .guarded (ih rfl)
    · have hlocal : (Event.entered f a).IsLocal :=
        Undo.isLocal_of_mem_events (u := u) (w := w.replay es) (by rw [hundone]; simp)
      exact hlocal.elim
  | plain _ hplain =>
    cases before with
    | nil =>
      obtain ⟨rfl, -⟩ := List.cons.inj hes
      exact hplain.elim
    | cons => simp at hes
  | task ht _ ih => exact .task ht (ih hes)
  | andThen h _ ih ih' =>
    rcases append_eq_append_cons hes with ⟨rest, rfl⟩ | ⟨rest, rfl, rfl⟩
    · exact ih rfl
    · exact .later h (ih' rfl)
  | ends _ _ _ ih => exact ih hes

/-- **What has happened until a frame is entered is a course**, which is cut there. -/
theorem Enters.course (h : Enters f a t w es) :
    Course t w (es ++ [.entered f a]) .exhausted := by
  induction h with
  | entry hroom => exact .frame hroom (.cut _ _)
  | inside hroom _ ih =>
    have hcut := Course.frame hroom ih
    rwa [show Outcome.leaving .exhausted = [] from rfl, List.append_nil] at hcut
  | begins h _ ih =>
    rw [List.append_assoc]
    exact .begins h ih
  | building _ ih =>
    have hcut := Course.building ih
    rwa [show Outcome.closing _ .exhausted = [] from rfl, List.append_nil] at hcut
  | first _ ih => exact .seqStop ih nofun
  | second h _ ih =>
    rw [List.append_assoc]
    exact .seq h ih
  | guarded _ ih => exact .guarded ih nofun
  | task ht _ ih => exact .task ht ih
  | later h _ ih =>
    rw [List.append_assoc]
    exact .andThen h ih

/-- The frames that were there are there when another one is entered. -/
theorem Enters.suffix_frames (h : Enters f a t w es) :
    w.stack.frames <:+ (w.replay es).stack.frames := by
  have heach := h.course.each_frames (List.suffix_refl _)
  exact (World.each_append.mp heach).2.1

theorem Enters.sound (h : Enters f a t w es) (hw : w.Sound) : (w.replay es).Sound :=
  hw.replay (World.admitsAll_append.mp h.course.admitsAll).1

/-! ### Runs that have ended up to a moment -/

@[simp] theorem endedRuns_nil (running : List (Frame × Activity)) : endedRuns running [] = [] := by
  cases running <;> rfl

theorem Balanced.endedRuns_eq (hes : Balanced es) (running : List (Frame × Activity)) :
    endedRuns running es = endedRuns [] es := by
  have hruns := hes.runs running []
  rwa [List.append_nil, endedRuns_nil, List.append_nil] at hruns

/-- A course leaves no frames but those that it has entered. -/
theorem Course.endedRuns_eq (h : Course t w es x) (running : List (Frame × Activity)) :
    endedRuns running es = endedRuns [] es := by
  induction h generalizing running with
  | cut | done | gone | notCreated | idle => rw [endedRuns_nil, endedRuns_nil]
  | begins h _ ih =>
    have hquiet := balanced_of_isQuiet h.isQuiet
    rw [hquiet.runs, hquiet.runs, ih]
  | @refused w f a hfull => exact ((Course.refused hfull).balanced nofun).endedRuns_eq running
  | @frame w g b es x hroom h ih =>
    by_cases hx : x = .exhausted
    · subst hx
      show endedRuns ((g, b) :: running) (es ++ []) = endedRuns [(g, b)] (es ++ [])
      rw [List.append_nil, ih, ih [(g, b)]]
    · exact ((Course.frame hroom h).balanced hx).endedRuns_eq running
  | @building o t w es x h ih =>
    by_cases hx : x = .exhausted
    · subst hx
      have hbegun : (Event.constructionBegun o).IsQuiet := trivial
      show endedRuns running (_ :: (es ++ [])) = endedRuns [] (_ :: (es ++ []))
      rw [List.append_nil, endedRuns_cons_of_isQuiet hbegun, endedRuns_cons_of_isQuiet hbegun, ih]
    · exact ((Course.building h).balanced hx).endedRuns_eq running
  | seq h _ _ ih' | andThen h _ _ ih' =>
    have hfirst := h.balanced Outcome.value_ne_exhausted
    rw [hfirst.runs, hfirst.runs, ih']
  | seqStop _ _ ih | guarded _ _ ih | task _ _ ih | ends _ _ _ ih => exact ih running
  | undone e' h _ => exact ((Course.undone e' h).balanced nofun).endedRuns_eq running
  | plain he hplain => exact ((Course.plain he hplain).balanced nofun).endedRuns_eq running

/-- The runs that have ended stay ended, whatever happens next. -/
theorem endedRuns_append (running : List (Frame × Activity)) (es fs : List Event) :
    ∃ running', endedRuns running (es ++ fs) = endedRuns running es ++ endedRuns running' fs := by
  induction es generalizing running with
  | nil => exact ⟨running, by rw [endedRuns_nil, List.nil_append, List.nil_append]⟩
  | cons e es ih =>
    by_cases hquiet : e.IsQuiet
    · rw [List.cons_append, endedRuns_cons_of_isQuiet hquiet, endedRuns_cons_of_isQuiet hquiet]
      exact ih running
    · cases e with
      | entered g b => exact ih ((g, b) :: running)
      | left e =>
        cases running with
        | nil => exact ih []
        | cons gb running =>
          obtain ⟨running', hruns⟩ := ih running
          exact ⟨running', congrArg (_ :: ·) hruns⟩
      | _ => exact (hquiet trivial).elim

/-- Only leaving a frame ends a run. -/
theorem endedRuns_concat {e : Event} (he : ∀ failure, e ≠ .left failure) (es : List Event)
    (running : List (Frame × Activity)) :
    endedRuns running (es ++ [e]) = endedRuns running es := by
  obtain ⟨running', hruns⟩ := endedRuns_append running es [e]
  rw [hruns]
  cases e with
  | left failure => exact (he failure rfl).elim
  | _ => cases running' <;> simp [endedRuns]

theorem Enters.endedRuns_eq (h : Enters f a t w es) (running : List (Frame × Activity)) :
    endedRuns running es = endedRuns [] es := by
  have hruns := h.course.endedRuns_eq running
  rwa [endedRuns_concat (by simp), endedRuns_concat (by simp)] at hruns

/-- A run that has ended has begun. -/
theorem start_mem_of_mem_endedRuns {running : List (Frame × Activity)} {run : EndedRun}
    (h : run ∈ endedRuns running es) : run.start ∈ es ∨ (run.frame, run.activity) ∈ running := by
  induction es generalizing running with
  | nil =>
    rw [endedRuns_nil] at h
    cases h
  | cons e es ih =>
    by_cases hquiet : e.IsQuiet
    · rw [endedRuns_cons_of_isQuiet hquiet] at h
      exact (ih h).imp_left (List.mem_cons_of_mem e)
    · cases e with
      | entered g b =>
        rcases ih h with hstart | hrunning
        · exact Or.inl (List.mem_cons_of_mem _ hstart)
        · refine (List.mem_cons.mp hrunning).imp_left fun heq => ?_
          obtain ⟨rfl, rfl⟩ := Prod.mk.inj heq
          exact List.mem_cons_self
      | left failure =>
        cases running with
        | nil => exact (ih h).imp_left (List.mem_cons_of_mem _)
        | cons gb running =>
          rcases List.mem_cons.mp h with rfl | h
          · exact Or.inr List.mem_cons_self
          · exact (ih h).imp (List.mem_cons_of_mem _) (List.mem_cons_of_mem gb)
      | _ => exact (hquiet trivial).elim

/-- Nothing ends where no frame is left. -/
theorem endedRuns_append_of_isQuiet (hfs : ∀ e ∈ fs, e.IsQuiet) (es : List Event) :
    endedRuns [] (es ++ fs) = endedRuns [] es := by
  induction fs generalizing es with
  | nil => rw [List.append_nil]
  | cons e fs ih =>
    rw [List.forall_mem_cons] at hfs
    rw [← List.singleton_append, ← List.append_assoc, ih hfs.2, endedRuns_concat]
    rintro failure rfl
    exact hfs.1

/-! ### Parts of what has happened -/

/-- The runs that have ended in `es` have ended in `fs`, of which `es` is a part. -/
def EndsWithin (es fs : List Event) : Prop := endedRuns [] es ⊆ endedRuns [] fs

theorem EndsWithin.refl (es : List Event) : EndsWithin es es := List.Subset.refl _

theorem EndsWithin.trans {gs : List Event} (h : EndsWithin es fs) (h' : EndsWithin fs gs) :
    EndsWithin es gs :=
  List.Subset.trans h h'

theorem endsWithin_left (es fs : List Event) : EndsWithin es (es ++ fs) := by
  obtain ⟨running', hruns⟩ := endedRuns_append [] es fs
  rw [EndsWithin, hruns]
  exact List.subset_append_left _ _

theorem Balanced.endsWithin_right (hes : Balanced es) (fs : List Event) :
    EndsWithin fs (es ++ fs) := by
  rw [EndsWithin, hes.runs]
  exact List.subset_append_right _ _

/-- What has ended in a frame has ended. -/
theorem Course.endsWithin_frame (h : Course .code w es x) :
    EndsWithin es (.entered f a :: (es ++ x.leaving)) := by
  show endedRuns [] es ⊆ endedRuns [(f, a)] (es ++ x.leaving)
  obtain ⟨running', hruns⟩ := endedRuns_append [(f, a)] es x.leaving
  rw [hruns, h.endedRuns_eq [(f, a)]]
  exact List.subset_append_left _ _

/-- What has ended in a frame that has not been left has ended. -/
theorem Enters.endsWithin_entered {g : Frame} {b : Activity} (h : Enters f a t w es) :
    EndsWithin es (.entered g b :: es) := by
  show endedRuns [] es ⊆ endedRuns [(g, b)] es
  rw [h.endedRuns_eq [(g, b)]]
  exact List.Subset.refl _

theorem endsWithin_building (o : ObjectId) (es : List Event) (x : Outcome Unit) :
    EndsWithin es (.constructionBegun o :: (es ++ x.closing o)) := by
  have hquiet : Balanced [.constructionBegun o] := .quiet trivial .nil
  exact (endsWithin_left es (x.closing o)).trans (hquiet.endsWithin_right _)

end

end ObjectDispatch
