import ObjectDispatch.Proofs.Course

/-!
# Conditions on the events of a course

What is asked of an event can depend on the world in which it happens and on everything
that has happened until then.  Whether a course meets such a condition depends on its
task: a body may start because of the mark that was set right before, and it is the task
that has set the mark and goes on with the body.

So a condition on events comes with one on tasks.  What the two have to do with each
other is said for each way in which a task goes on, and from this it follows, by one
induction on courses, that every event of a course is allowed if its task is.

## Main definitions

* `World.EachSince` — a condition on every event of a sequence and what came before it.
* `Event.IsIncidental` — the events that no task sets out for.
* `Task.Observes` — tasks of this kind let nothing happen but what is allowed.

## Main results

* `Task.Begins.of_mem_constructorMarked`, `Task.Begins.of_mem_destructorMarked` — how
  classes are marked.
* `Course.eachSince` — every event of a course is allowed, given what came before it.
* `Course.each` — the same for a condition that does not look back.
-/

namespace ObjectDispatch

/-! ### Every event and what came before it -/

namespace World

/-- Each of the events is one that `A` allows in the world that the events before it
have made, and after everything that has happened until then, which is `past` for the
first of them. -/
def EachSince (A : World → List Event → Event → Prop) : World → List Event → List Event → Prop
  | _, _, [] => True
  | w, past, e :: es => A w past e ∧ (w.after e).EachSince A (past ++ [e]) es

variable {A : World → List Event → Event → Prop} {w : World} {past es fs : List Event}

theorem eachSince_append : w.EachSince A past (es ++ fs) ↔
    w.EachSince A past es ∧ (w.replay es).EachSince A (past ++ es) fs := by
  induction es generalizing w past with
  | nil => simp [EachSince]
  | cons e es ih => simp [EachSince, ih, and_assoc]

theorem eachSince_of_forall (h : ∀ e ∈ es, ∀ w past, A w past e) : w.EachSince A past es := by
  induction es generalizing w past with
  | nil => trivial
  | cons e es ih =>
    rw [List.forall_mem_cons] at h
    exact ⟨h.1 w past, ih h.2⟩

/-- A condition that does not look back is one on worlds and events. -/
theorem eachSince_iff_each {A : World → Event → Prop} :
    w.EachSince (fun v _ => A v) past es ↔ w.Each A es := by
  induction es generalizing w past with
  | nil => exact Iff.rfl
  | cons e es ih => exact and_congr_right fun _ => ih

end World

/-! ### Events on the way -/

/-- No task sets out for the event: a frame is refused or left, the scope of a
construction opens or closes, something is undone, or code does it in passing. -/
def Event.IsIncidental : Event → Prop
  | .entered _ _ | .objectCreated _ _ | .constructorMarked _ _ | .destructorMarked _ _
  | .deletionBegun _ => False
  | _ => True

section

variable {e : Event}

theorem Event.IsIncidental.ne_entered (he : e.IsIncidental) (f : Frame) (a : Activity) :
    e ≠ .entered f a := by
  rintro rfl
  exact he

theorem Event.IsIncidental.ne_constructorMarked (he : e.IsIncidental) (o : ObjectId)
    (k : ClassId) : e ≠ .constructorMarked o k := by
  rintro rfl
  exact he

theorem Event.IsIncidental.ne_destructorMarked (he : e.IsIncidental) (o : ObjectId)
    (k : ClassId) : e ≠ .destructorMarked o k := by
  rintro rfl
  exact he

theorem Event.IsPlain.isIncidental (he : e.IsPlain) : e.IsIncidental := by
  cases e <;> trivial

theorem Undo.isIncidental_of_mem_events {u : Undo} {w : World} (he : e ∈ u.events w) :
    e.IsIncidental := by
  rw [Undo.eq_event_of_mem he]
  cases u with
  | restore o y v => cases v <;> trivial
  | _ => trivial

theorem Undo.ne_constructorMarked {u : Undo} {w : World} (he : e ∈ u.events w) (o : ObjectId)
    (k : ClassId) : e ≠ .constructorMarked o k :=
  (Undo.isIncidental_of_mem_events he).ne_constructorMarked o k

theorem Undo.ne_destructorMarked {u : Undo} {w : World} (he : e ∈ u.events w) (o : ObjectId)
    (k : ClassId) : e ≠ .destructorMarked o k :=
  (Undo.isIncidental_of_mem_events he).ne_destructorMarked o k

theorem Outcome.isIncidental_of_mem_leaving {x : Outcome Unit} (he : e ∈ x.leaving) :
    e.IsIncidental := by
  obtain ⟨failure, rfl⟩ := Outcome.exists_of_mem_leaving he
  trivial

theorem Outcome.isIncidental_of_mem_closing {x : Outcome Unit} {o : ObjectId}
    (he : e ∈ x.closing o) : e.IsIncidental := by
  rw [Outcome.eq_of_mem_closing he]
  trivial

end

/-! ### Marks -/

section

variable {w : World} {t t' : Task} {evs : List Event} {o : ObjectId} {k : ClassId}

/-- **How a class is marked as constructed**: where it has no mark, when the class is
constructed and has no constructor, or when its constructor is to run. -/
theorem Task.Begins.of_mem_constructorMarked (h : t.Begins w evs t')
    (hmark : .constructorMarked o k ∈ evs) :
    evs = [.constructorMarked o k] ∧ ∃ ob c, w.objects.get? o = some ob ∧
      ob.isConstructed k = false ∧ w.registry.get? k = some c ∧
      (t = .construct o k ∧ c.function? constructorName = none ∧
          t' = .all (c.supers.map (.construct o)) ∨
        ∃ f, f.owner = k ∧ t = .constructor o f ∧ c.function? constructorName = some f ∧
          t' = .seq (f.initialization o) (.seq (.all (c.supers.map (.construct o)))
            (.frame (f.callFrame (some o) constructorName) (.body f)))) := by
  cases h with
  | constructSupers hob hk hc hf =>
    cases List.mem_singleton.mp hmark
    exact ⟨rfl, _, _, hob, hk, hc, Or.inl ⟨rfl, hf, rfl⟩⟩
  | constructor hob hk hc hf =>
    cases List.mem_singleton.mp hmark
    exact ⟨rfl, _, _, hob, hk, hc, Or.inr ⟨_, rfl, rfl, hf, rfl⟩⟩
  | create =>
    obtain ⟨_, _, hassigned⟩ :=
      Registry.exists_of_mem_initialValues ((List.mem_cons.mp hmark).resolve_left nofun)
    cases hassigned
  | remove => exact absurd rfl (Undo.ne_constructorMarked hmark o k)
  | delete | destruct | destructOnward | chain | assign => cases List.mem_singleton.mp hmark
  | _ => cases hmark

/-- **How a class is marked as destructed**: where it has no mark, when its destructor is
to run, of itself or because another one chains to it. -/
theorem Task.Begins.of_mem_destructorMarked (h : t.Begins w evs t')
    (hmark : .destructorMarked o k ∈ evs) :
    evs = [.destructorMarked o k] ∧ ∃ ob, w.objects.get? o = some ob ∧
      ob.isDestructed k = false ∧
      ((∃ c f, t = .destruct o k ∧ w.registry.get? k = some c ∧
          c.function? destructorName = some f ∧
          t' = .guarded (.frame (f.callFrame (some o) destructorName) (.body f)) (.forget o)) ∨
        ∃ f, f.owner = k ∧ t = .destructOnward o f ∧
          t' = .frame (f.callFrame (if f.flags.isCommon then none else some o) f.fullName)
            (.body f)) := by
  cases h with
  | destruct hob hk hc hf =>
    cases List.mem_singleton.mp hmark
    exact ⟨rfl, _, hob, hk, Or.inl ⟨_, _, rfl, hc, hf, rfl⟩⟩
  | destructOnward hob hk =>
    cases List.mem_singleton.mp hmark
    exact ⟨rfl, _, hob, hk, Or.inr ⟨_, rfl, rfl, rfl⟩⟩
  | create =>
    obtain ⟨_, _, hassigned⟩ :=
      Registry.exists_of_mem_initialValues ((List.mem_cons.mp hmark).resolve_left nofun)
    cases hassigned
  | remove => exact absurd rfl (Undo.ne_destructorMarked hmark o k)
  | constructSupers | constructor | delete | chain | assign => cases List.mem_singleton.mp hmark
  | _ => cases hmark

end

/-! ### Tasks that let nothing else happen -/

/-- The tasks for which `P` holds let no events happen but those that `A` allows.  What
such a task begins with is allowed, and it goes on as such a task; its parts are such
tasks when their turn comes, and running code takes up no others. -/
structure Task.Observes (P : World → List Event → Task → Prop)
    (A : World → List Event → Event → Prop) : Prop where
  incidental {w : World} {past : List Event} {e : Event} : e.IsIncidental → A w past e
  begins {w : World} {past evs : List Event} {t t' : Task} : w.Sound → P w past t →
    t.Begins w evs t' → w.EachSince A past evs ∧ P (w.replay evs) (past ++ evs) t'
  entered {w : World} {past : List Event} {f : Frame} {a : Activity} :
    P w past (.frame f a) → A w past (.entered f a)
  building {w : World} {past : List Event} {o : ObjectId} {t : Task} :
    P w past (.building o t) → P (w.after (.constructionBegun o)) (past ++ [.constructionBegun o]) t
  seq {w : World} {past : List Event} {t next : Task} :
    P w past (.seq t next) → P w past t ∧ ∀ es, P (w.replay es) (past ++ es) next
  guarded {w : World} {past : List Event} {t : Task} {u : Undo} :
    P w past (.guarded t u) → P w past t
  code (w : World) (past : List Event) : P w past .code
  available {w : World} {past : List Event} {t : Task} : w.Sound → w.Available t → P w past t

section

variable {P : World → List Event → Task → Prop} {A : World → List Event → Event → Prop}
  {w : World} {t : Task} {past es : List Event} {x : Outcome Unit}

/-- What happens on the way is always allowed. -/
theorem Task.Observes.eachSince_incidental (hA : Task.Observes P A)
    (h : ∀ e ∈ es, e.IsIncidental) : w.EachSince A past es :=
  World.eachSince_of_forall fun e he _ _ => hA.incidental (h e he)

/-- **Every event of a course is allowed** if its task is one of those that let nothing
else happen.  The induction is on the course. -/
theorem Course.eachSince (h : Course t w es x) (hA : Task.Observes P A) (hw : w.Sound)
    (ht : P w past t) : w.EachSince A past es := by
  induction h generalizing past with
  | cut | done | gone | notCreated | idle => trivial
  | begins h _ ih =>
    obtain ⟨hbegun, hnext⟩ := hA.begins hw ht h
    exact World.eachSince_append.mpr ⟨hbegun, ih (hw.replay h.admitsAll) hnext⟩
  | refused => exact ⟨hA.incidental trivial, trivial⟩
  | frame hroom _ ih =>
    refine ⟨hA.entered ht, World.eachSince_append.mpr ⟨?_, ?_⟩⟩
    · exact ih (hw.after hroom) (hA.code _ _)
    · exact hA.eachSince_incidental fun _ he => Outcome.isIncidental_of_mem_leaving he
  | building _ ih =>
    refine ⟨hA.incidental trivial, World.eachSince_append.mpr ⟨?_, ?_⟩⟩
    · exact ih (hw.after trivial) (hA.building ht)
    · exact hA.eachSince_incidental fun _ he => Outcome.isIncidental_of_mem_closing he
  | seq h _ ih ih' =>
    obtain ⟨hfirst, hnext⟩ := hA.seq ht
    exact World.eachSince_append.mpr ⟨ih hw hfirst, ih' (h.sound hw) (hnext _)⟩
  | seqStop _ _ ih => exact ih hw (hA.seq ht).1
  | guarded _ _ ih => exact ih hw (hA.guarded ht)
  | undone _ _ ih =>
    refine World.eachSince_append.mpr ⟨ih hw (hA.guarded ht), ?_⟩
    exact hA.eachSince_incidental fun _ he => Undo.isIncidental_of_mem_events he
  | plain _ hplain => exact ⟨hA.incidental hplain.isIncidental, trivial⟩
  | task havailable _ ih => exact ih hw (hA.available hw havailable)
  | andThen h _ ih ih' =>
    exact World.eachSince_append.mpr ⟨ih hw ht, ih' (h.sound hw) (hA.code _ _)⟩
  | ends _ _ _ ih => exact ih hw ht

/-- **Every event of a course is allowed**, when what is allowed does not depend on the
past. -/
theorem Course.each {P : World → Task → Prop} {A : World → Event → Prop}
    (h : Course t w es x) (hA : Task.Observes (fun v _ => P v) (fun v _ => A v)) (hw : w.Sound)
    (ht : P w t) : w.Each A es := by
  have hsince : w.EachSince (fun v _ => A v) [] es := h.eachSince hA hw ht
  exact World.eachSince_iff_each.mp hsince

end

end ObjectDispatch
