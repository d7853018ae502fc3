import ObjectDispatch.Proofs.Construction

/-!
# Runs that have ended

Which runs of code in frames have ended, and how, can be read off the events: the
frame that is left is the one that was entered last and has not been left since.  A
course that has ended has left the frames that it has entered, so its runs are the
same whatever was running before it.

## Main definitions

* `EndedRun`, `endedRuns` — the runs in frames that have come to an end.
* `Balanced` — events that leave the frames that they have entered.

## Main results

* `Course.balanced` — a course that has ended has left the frames that it has entered.
-/

namespace ObjectDispatch

/-- The run of something in a frame, and the error that ended it, if one did. -/
structure EndedRun where
  /-- The frame. -/
  frame : Frame
  /-- What ran in it. -/
  activity : Activity
  /-- The error. -/
  failure : Option DispatchError

/-- The event with which the run began. -/
def EndedRun.start (r : EndedRun) : Event := .entered r.frame r.activity

/-- The runs that end in a sequence of events, where those in `running`, innermost
first, have begun before. -/
def endedRuns : (running : List (Frame × Activity)) → List Event → List EndedRun
  | _, [] => []
  | running, .entered f a :: es => endedRuns ((f, a) :: running) es
  | (f, a) :: running, .left e :: es => ⟨f, a, e⟩ :: endedRuns running es
  | running, _ :: es => endedRuns running es

/-- No frame is entered or left. -/
def Event.IsQuiet : Event → Prop
  | .entered _ _ | .left _ => False
  | _ => True

/-- The frames that are left are those that were entered: whatever was running before
is running after, and each run that has begun has ended. -/
structure Balanced (es : List Event) : Prop where
  runs : ∀ running fs, endedRuns running (es ++ fs) = endedRuns [] es ++ endedRuns running fs
  starts : ∀ p k o, (endedRuns [] es).countP (·.start.starts p k o) = es.countP (·.starts p k o)

section

variable {es fs : List Event}

theorem endedRuns_cons_of_isQuiet {e : Event} (he : e.IsQuiet) (running : List (Frame × Activity))
    (es : List Event) :
    endedRuns running (e :: es) = endedRuns running es := by
  cases running <;> cases e <;> first | rfl | exact he.elim

theorem Event.IsLocal.isQuiet {e : Event} (he : e.IsLocal) : e.IsQuiet := by
  cases e <;> trivial

theorem Event.IsPlain.isQuiet {e : Event} (he : e.IsPlain) : e.IsQuiet := by
  cases e <;> trivial

theorem Event.IsQuiet.starts_eq_false {e : Event} (he : e.IsQuiet) (p : ConstructorPart)
    (k : ClassId) (o : ObjectId) : e.starts p k o = false := by
  cases e <;> first | rfl | exact he.elim

theorem Balanced.nil : Balanced [] := ⟨fun _ _ => rfl, fun _ _ _ => rfl⟩

theorem Balanced.append (hes : Balanced es) (hfs : Balanced fs) : Balanced (es ++ fs) := by
  have hruns := hes.runs [] fs
  refine ⟨fun running gs => ?_, fun p k o => ?_⟩
  · rw [List.append_assoc, hes.runs, hfs.runs, hruns, List.append_assoc]
  · rw [hruns, List.countP_append, List.countP_append, hes.starts, hfs.starts]

theorem Balanced.quiet {e : Event} (he : e.IsQuiet) (hes : Balanced es) : Balanced (e :: es) := by
  have hruns := endedRuns_cons_of_isQuiet he [] es
  refine ⟨fun running fs => ?_, fun p k o => ?_⟩
  · rw [List.cons_append, endedRuns_cons_of_isQuiet he, hruns]
    exact hes.runs running fs
  · have hnone := he.starts_eq_false p k o
    rw [hruns, hes.starts, List.countP_cons_of_neg (by rw [hnone]; decide)]

theorem balanced_of_isQuiet (h : ∀ e ∈ es, e.IsQuiet) : Balanced es := by
  induction es with
  | nil => exact .nil
  | cons e es ih =>
    rw [List.forall_mem_cons] at h
    exact .quiet h.1 (ih h.2)

/-- A frame that is entered and left is one run more. -/
theorem endedRuns_frame (hes : Balanced es) (f : Frame) (a : Activity) (e : Option DispatchError)
    (running : List (Frame × Activity)) :
    endedRuns running (.entered f a :: (es ++ .left e :: fs)) =
      endedRuns [] es ++ ⟨f, a, e⟩ :: endedRuns running fs := by
  show endedRuns ((f, a) :: running) (es ++ .left e :: fs) = _
  rw [hes.runs]
  rfl

theorem endedRuns_frame_nil (hes : Balanced es) (f : Frame) (a : Activity)
    (e : Option DispatchError) :
    endedRuns [] (.entered f a :: (es ++ [.left e])) = endedRuns [] es ++ [⟨f, a, e⟩] :=
  endedRuns_frame hes f a e []

theorem Balanced.frame (hes : Balanced es) (f : Frame) (a : Activity) (e : Option DispatchError) :
    Balanced (.entered f a :: (es ++ [.left e])) := by
  refine ⟨fun running fs => ?_, fun p k o => ?_⟩
  · have hend : Event.entered f a :: (es ++ [.left e]) ++ fs =
        .entered f a :: (es ++ .left e :: fs) := by simp
    rw [hend, endedRuns_frame hes, endedRuns_frame hes, List.append_assoc]
    rfl
  · have hleft : [Event.left e].countP (·.starts p k o) = 0 := rfl
    rw [endedRuns_frame hes, List.countP_append, hes.starts, List.countP_cons, List.countP_cons,
      List.countP_append, hleft]
    show _ + (0 + if (Event.entered f a).starts p k o = true then 1 else 0) = _
    omega

theorem Task.Begins.isQuiet {w : World} {t t' : Task} {evs : List Event} (h : t.Begins w evs t') :
    ∀ e ∈ evs, e.IsQuiet := by
  rcases h.isLocal with hlocal | ⟨cls, name, es, rfl, -, -, hlocal⟩
  · exact fun e he => (hlocal e he).isQuiet
  · rw [List.forall_mem_cons]
    exact ⟨trivial, fun e he => (hlocal e he).isQuiet⟩

theorem Undo.balanced (u : Undo) (w : World) : Balanced (u.events w) :=
  balanced_of_isQuiet fun _ he => (Undo.isLocal_of_mem_events he).isQuiet

/-- A course that has ended has left the frames that it has entered. -/
theorem Course.balanced {t : Task} {w : World} {x : Outcome Unit} (h : Course t w es x)
    (hx : x ≠ .exhausted) : Balanced es := by
  induction h with
  | cut => exact absurd rfl hx
  | done | gone | notCreated | idle => exact .nil
  | begins h _ ih => exact (balanced_of_isQuiet h.isQuiet).append (ih hx)
  | refused => exact .quiet trivial .nil
  | @frame w f a es x _ _ ih =>
    obtain ⟨failure, hleaving⟩ := Outcome.exists_leaving_eq hx
    rw [hleaving]
    exact (ih hx).frame f a failure
  | @building o t w es x _ ih =>
    rw [Outcome.closing_eq hx]
    exact .quiet trivial ((ih hx).append (.quiet trivial .nil))
  | seq _ _ ih ih' | andThen _ _ ih ih' =>
    exact (ih Outcome.value_ne_exhausted).append (ih' hx)
  | seqStop _ _ ih | guarded _ _ ih | task _ _ ih => exact ih hx
  | ends _ hx' _ ih => exact ih hx'
  | @undone t u w es _ _ _ ih =>
    exact (ih Outcome.failure_ne_exhausted).append (u.balanced _)
  | plain _ hplain => exact .quiet hplain.isQuiet .nil

end

end ObjectDispatch
