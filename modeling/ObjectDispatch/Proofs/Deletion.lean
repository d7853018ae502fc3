import ObjectDispatch.Proofs.Destructors
import ObjectDispatch.Proofs.Moments
import ObjectDispatch.Proofs.Removal

/-!
# Objects at rest

While an object is being deleted some of its destructors count as begun, and one of
them is running whenever other code runs.  Outside of that none of them counts as
begun: a deletion that succeeds leaves no object, and one that fails forgets which
destructors have begun.

So when a deletion of an object begins at a moment at which no destructor of it is
running, all of its destructors are still to come.

## Main definitions

* `World.AtRest` — no destructor counts as begun for an object.
* `World.RunsDestructor` — a destructor of an object is running.
* `Session.BeginsDeletion` — a moment of a session at which an object begins to be
  deleted.

## Main results

* `Course.atRest` — what code does leaves an object at rest.
* `Session.BeginsDeletion.atRest` — **a deletion that begins while no destructor of the
  object is running finds the object at rest.**
-/

namespace ObjectDispatch

section

variable {o : ObjectId} {w : World} {t : Task} {es : List Event} {x : Outcome Unit}

/-! ### Objects at rest -/

/-- No destructor counts as begun for the object, should it be alive. -/
def World.AtRest (w : World) (o : ObjectId) : Prop :=
  ∀ ob, w.objects.get? o = some ob → ob.destructed = []

/-- A destructor of the object is running. -/
def World.RunsDestructor (w : World) (o : ObjectId) : Prop :=
  ∃ f ∈ w.stack.frames, f.object = some o ∧ f.kind = .dtor

theorem World.RunsDestructor.of_suffix {w' : World} (h : w.RunsDestructor o)
    (hframes : w.stack.frames <:+ w'.stack.frames) : w'.RunsDestructor o := by
  obtain ⟨f, hf, hdtor⟩ := h
  exact ⟨f, hframes.subset hf, hdtor⟩

theorem World.atRest_of_get? (h : w.objects.get? o = none) : w.AtRest o := by
  intro ob hob
  rw [h] at hob
  cases hob

/-- An object that is alive after an event was so before it, with the same class and
the same destructors begun, or it is new. -/
theorem World.destructed_after {e : Event} {ob' : Object} (he : ¬ e.TouchesDestructors o)
    (hob' : (w.after e).objects.get? o = some ob') :
    (∃ ob, w.objects.get? o = some ob ∧ ob'.cls = ob.cls ∧ ob'.destructed = ob.destructed) ∨
      w.objects.get? o = none ∧ ob'.destructed = [] := by
  rcases World.cases_of_get?_after hob' with ⟨ob, hob, rfl⟩ | ⟨hdead, _, _, -, -, rfl⟩
  · refine Or.inl ⟨ob, hob, e.change_cls o ob, Event.destructed_change (fun c => ?_) ?_ ob⟩
    all_goals
      rintro rfl
      exact he rfl
  · exact Or.inr ⟨hdead, rfl⟩

theorem World.AtRest.after (h : w.AtRest o) {e : Event} (he : ¬ e.TouchesDestructors o) :
    (w.after e).AtRest o := by
  intro ob' hob'
  rcases World.destructed_after he hob' with ⟨ob, hob, -, hsame⟩ | ⟨-, hnone⟩
  · rw [hsame]
    exact h ob hob
  · exact hnone

theorem Undo.not_touchesDestructors {u : Undo} {e : Event} (hu : u ≠ .forget o)
    (he : e ∈ u.events w) : ¬ e.TouchesDestructors o := by
  rw [Undo.eq_event_of_mem he]
  cases u with
  | remove => exact fun h => h
  | forget o' =>
    rintro rfl
    exact hu rfl
  | restore o' y v => cases v <;> exact fun h => h

theorem Event.IsPlain.not_touchesDestructors {e : Event} (h : e.IsPlain) :
    ¬ e.TouchesDestructors o := by
  cases e <;> first | exact h.elim | exact fun h => h

/-- What a failed task has to forget is forgotten. -/
theorem World.atRest_of_forget (w : World) (o : ObjectId) :
    (w.replay ((Undo.forget o).events w)).AtRest o := by
  unfold Undo.events
  split
  · intro ob' hob'
    have hob' : (w.after (.destructorsForgotten o)).objects.get? o = some ob' := hob'
    rcases World.cases_of_get?_after hob' with ⟨ob, -, rfl⟩ | ⟨-, _, _, hevent, -⟩
    · rw [Event.change_destructorsForgotten]
      rfl
    · cases hevent
  · next hdead =>
    refine World.atRest_of_get? ?_
    simpa [Undo.object] using hdead

/-! ### Where deletions begin -/

/-- If a deletion of the object begins here, a destructor of it is running or the
object is at rest. -/
def World.DeletesAtRest (o : ObjectId) (w : World) (e : Event) : Prop :=
  e = .deletionBegun o → w.registry.Regular → w.RunsDestructor o ∨ w.AtRest o

theorem World.deletesAtRest_of_ne {e : Event} (he : e ≠ .deletionBegun o) :
    w.DeletesAtRest o e :=
  fun h => absurd h he

theorem World.deletesAtRest_leaving (w : World) (x : Outcome Unit) :
    w.Each (World.DeletesAtRest o) x.leaving := by
  refine World.each_of_forall fun e he v => World.deletesAtRest_of_ne ?_
  obtain ⟨_, rfl⟩ := Outcome.exists_of_mem_leaving he
  simp

theorem World.deletesAtRest_closing (w : World) (o' : ObjectId) (x : Outcome Unit) :
    w.Each (World.DeletesAtRest o) (x.closing o') := by
  refine World.each_of_forall fun e he v => World.deletesAtRest_of_ne ?_
  rw [Outcome.eq_of_mem_closing he]
  simp

theorem World.deletesAtRest_undo (w : World) (u : Undo) :
    w.Each (World.DeletesAtRest o) (u.events w) := by
  refine World.each_of_forall fun e he v => World.deletesAtRest_of_ne ?_
  rw [Undo.eq_event_of_mem he]
  unfold Undo.event
  split <;> simp

/-- While a destructor of the object is running there is nothing more to show. -/
theorem Course.each_of_runsDestructor (h : Course t w es x) (hw : w.RunsDestructor o) :
    w.Each (World.DeletesAtRest o) es :=
  (h.each_frames (List.suffix_refl _)).imp fun _ _ hframes _ _ => Or.inl (hw.of_suffix hframes)

/-- Nor is there when names are out of order, since they stay so. -/
theorem World.each_of_not_regular (hw : ¬ w.registry.Regular) :
    w.Each (World.DeletesAtRest o) es := by
  induction es generalizing w with
  | nil => trivial
  | cons e es ih =>
    refine ⟨fun _ hregular => absurd hregular hw, ih fun hregular => hw ?_⟩
    exact hregular.of_growsTo (World.growsTo_after w e)

/-- Events that leave the destructors of the object alone leave it at rest. -/
theorem World.AtRest.replay (h : w.AtRest o) (hes : ∀ e ∈ es, ¬ e.TouchesDestructors o) :
    w.Each (World.DeletesAtRest o) es ∧ (w.replay es).AtRest o := by
  induction es generalizing w with
  | nil => exact ⟨trivial, h⟩
  | cons e es ih =>
    rw [List.forall_mem_cons] at hes
    obtain ⟨heach, hend⟩ := ih (h.after hes.1) hes.2
    exact ⟨⟨fun _ _ => Or.inr h, heach⟩, hend⟩

/-! ### Deletions -/

/-- While a destructor that is entered runs, a destructor is running. -/
theorem Course.each_of_destructor {f : Frame} {a : Activity} (h : Course (.frame f a) w es x)
    (hobject : f.object = some o) (hkind : f.kind = .dtor) :
    w.Each (World.DeletesAtRest o) es := by
  rcases h.cases_of_frame with ⟨rfl, -⟩ | ⟨rfl, -⟩ | ⟨fs, rfl, hcode⟩
  · trivial
  · exact ⟨World.deletesAtRest_of_ne (by simp), trivial⟩
  · have hrunning : (w.after (.entered f a)).RunsDestructor o :=
      ⟨f, List.mem_cons_self, hobject, hkind⟩
    have hinside := hcode.each_of_runsDestructor hrunning
    refine ⟨World.deletesAtRest_of_ne (by simp), ?_⟩
    exact World.each_append.mpr ⟨hinside, World.deletesAtRest_leaving _ x⟩

/-- A destructor that is called as such runs as one. -/
theorem MemberFunction.kind_callFrame {f : MemberFunction}
    (hf : f.flags = { isDestructor := true }) (object : Option ObjectId) (n : String) :
    (f.callFrame object n).kind = .dtor := by
  simp [MemberFunction.callFrame, MemberFunction.frameKind, hf]

/-- A destructor that fails leaves the object at rest, or there is no object. -/
theorem Course.atRest_of_destruct {k : ClassId} {e : DispatchError}
    (h : Course (.destruct o k) w es (.failure e)) : (w.replay es).AtRest o := by
  rcases h.cases_of_destruct with ⟨rfl, hnone | ⟨-, hdead⟩ | ⟨hvalue, -⟩⟩ |
    ⟨_, _, _, rest, -, -, -, -, rfl, hguarded⟩
  · cases hnone
  · exact World.atRest_of_get? hdead
  · cases hvalue
  · rcases hguarded.cases_of_guarded with ⟨-, hx⟩ | ⟨fs, _, _, rfl, -, -⟩
    · exact absurd rfl (hx e)
    · rw [World.replay_cons, World.replay_append]
      exact World.atRest_of_forget _ o

theorem Course.each_of_destruct {k : ClassId} (h : Course (.destruct o k) w es x) (hw : w.Sound) :
    w.Each (World.DeletesAtRest o) es := by
  by_cases hregular : w.registry.Regular
  · rcases h.cases_of_destruct with ⟨rfl, -⟩ | ⟨_, c, f, rest, -, -, hc, hf, rfl, hguarded⟩
    · trivial
    · have hkind := MemberFunction.kind_callFrame
        (hw.built.flags_of_destructor hregular hc hf) (some o) destructorName
      refine ⟨World.deletesAtRest_of_ne (by simp), ?_⟩
      rcases hguarded.cases_of_guarded with ⟨hframe, -⟩ | ⟨fs, _, _, rfl, -, hframe⟩
      · exact hframe.each_of_destructor rfl hkind
      · have hinside := hframe.each_of_destructor rfl hkind
        exact World.each_append.mpr ⟨hinside, World.deletesAtRest_undo _ _⟩
  · exact World.each_of_not_regular hregular

theorem Course.of_all_destruct {ks : List ClassId}
    (h : Course (.all (ks.map (.destruct o))) w es x) (hw : w.Sound) :
    w.Each (World.DeletesAtRest o) es ∧ (∀ e, x = .failure e → (w.replay es).AtRest o) := by
  induction ks generalizing w es with
  | nil =>
    obtain ⟨rfl, rfl | rfl⟩ := h.cases_of_done
    · exact ⟨trivial, by simp⟩
    · exact ⟨trivial, by simp⟩
  | cons k ks ih =>
    rcases h.cases_of_seq with ⟨hfirst, -⟩ | ⟨fs, gs, rfl, hfirst, hrest⟩
    · refine ⟨hfirst.each_of_destruct hw, ?_⟩
      rintro e rfl
      exact hfirst.atRest_of_destruct
    · obtain ⟨heach, hend⟩ := ih hrest (hfirst.sound hw)
      rw [World.replay_append]
      exact ⟨World.each_append.mpr ⟨hfirst.each_of_destruct hw, heach⟩, hend⟩

/-- **A deletion that has ended leaves the object at rest**, or there is no object. -/
theorem Course.of_delete (h : Course (.delete o) w es x) (hw : w.Sound)
    (hrest : w.registry.Regular → w.AtRest o) :
    w.Each (World.DeletesAtRest o) es ∧ (x ≠ .exhausted → (w.replay es).AtRest o) := by
  rcases h.cases_of_delete with ⟨rfl, hx⟩ | ⟨ob, c, rest, -, -, rfl, hseq⟩
  · refine ⟨trivial, fun hended => World.atRest_of_get? ?_⟩
    exact (hx.resolve_left hended).2
  · have hbegun : w.DeletesAtRest o (.deletionBegun o) := fun _ hregular => Or.inr (hrest hregular)
    rcases hseq.cases_of_seq with ⟨hall, hvalue⟩ | ⟨fs, gs, rfl, hall, hremove⟩
    · obtain ⟨heach, hend⟩ := hall.of_all_destruct hw
      refine ⟨⟨hbegun, heach⟩, fun hended => ?_⟩
      cases x with
      | value => exact absurd rfl hvalue
      | failure e => exact hend e rfl
      | exhausted => exact absurd rfl hended
    · obtain ⟨heach, -⟩ := hall.of_all_destruct hw
      rcases hremove.cases_of_remove with ⟨rfl, rfl⟩ | ⟨rfl, -⟩
      · rw [List.append_nil]
        exact ⟨⟨hbegun, heach⟩, fun hended => absurd rfl hended⟩
      · have hwhole := World.each_append.mpr ⟨heach, World.deletesAtRest_undo _ (.remove o)⟩
        refine ⟨⟨hbegun, hwhole⟩, fun _ => ?_⟩
        rw [World.replay_cons, World.replay_append]
        exact World.atRest_of_get? (World.get?_of_remove _ o)

/-! ### Code -/

/-- The task has nothing to do with the destructors of the object: it is apart from
them, or it is code of a frame that does not chain to them. -/
def Task.StaysApart (o : ObjectId) (w : World) (t : Task) : Prop :=
  t.Apart o ∨ t = .code ∧
    ∀ g, w.stack.current? = some g → g.object = some o → ¬ g.ChainsToDestructors

/-- **What code does leaves an object at rest**, unless it is code of a destructor of
that object.  The induction is on the course; deletions of the object are courses whose
parts have been looked at already. -/
theorem Course.atRest (h : Course t w es x) (hw : w.Sound)
    (hrest : w.registry.Regular → w.AtRest o) (ht : t.StaysApart o w) :
    w.Each (World.DeletesAtRest o) es ∧
      (x ≠ .exhausted → (w.replay es).registry.Regular → (w.replay es).AtRest o) := by
  -- what leaves the destructors alone, from any world on: used where no part is a course
  have hquiet {v : World} {fs : List Event} (hv : v.registry.Regular → v.AtRest o)
      (hfs : ∀ e ∈ fs, ¬ e.TouchesDestructors o) : v.Each (World.DeletesAtRest o) fs ∧
        ((v.replay fs).registry.Regular → (v.replay fs).AtRest o) := by
    by_cases hregular : v.registry.Regular
    · obtain ⟨heach, hend⟩ := (hv hregular).replay hfs
      exact ⟨heach, fun _ => hend⟩
    · exact ⟨World.each_of_not_regular hregular,
        fun h => absurd (h.of_growsTo (v.leadsTo_replay fs).registry) hregular⟩
  induction h with
  | cut => exact ⟨trivial, fun hx => absurd rfl hx⟩
  | done | gone | notCreated | idle => exact ⟨trivial, fun _ => hrest⟩
  | begins h h' ih =>
    have hapart := ht.resolve_right (by rintro ⟨rfl, -⟩; cases h)
    rcases h.apart hw hapart with rfl | ⟨hnext, hevs⟩
    · -- a deletion of the object, for which the induction hypothesis says nothing
      obtain ⟨heach, hend⟩ := (Course.begins h h').of_delete hw hrest
      exact ⟨heach, fun hx _ => hend hx⟩
    · obtain ⟨hbegun, hlater⟩ := hquiet hrest hevs
      obtain ⟨heach, hend⟩ := ih (hw.replay h.admitsAll) hlater (Or.inl hnext)
      rw [World.replay_append]
      exact ⟨World.each_append.mpr ⟨hbegun, heach⟩, hend⟩
  | @refused w f a =>
    have hevent : ∀ e ∈ [Event.refused f a], ¬ e.TouchesDestructors o := by
      simp [Event.TouchesDestructors]
    obtain ⟨heach, hend⟩ := hquiet hrest hevent
    exact ⟨heach, fun _ => hend⟩
  | @frame w f a es x hroom h ih =>
    have hapart : (Task.frame f a).Apart o := ht.resolve_right (by simp)
    -- the frame that is entered is the current one, and does not chain to destructors
    have hown : Task.code.StaysApart o (w.after (.entered f a)) := by
      refine Or.inr ⟨rfl, fun g hg hobject => ?_⟩
      cases hg
      exact (hapart hobject).1
    obtain ⟨heach, hend⟩ := ih (hw.after hroom) hrest hown
    have hwhole := World.each_append.mpr ⟨heach, World.deletesAtRest_leaving _ x⟩
    refine ⟨⟨World.deletesAtRest_of_ne (by simp), hwhole⟩, fun hx => ?_⟩
    rw [World.replay_cons, World.replay_append, World.replay_leaving hx]
    exact hend hx
  | @building o' t w es x _ ih =>
    have hapart : (Task.building o' t).Apart o := ht.resolve_right (by simp)
    obtain ⟨heach, hend⟩ := ih (hw.after trivial) hrest (Or.inl hapart)
    have hwhole := World.each_append.mpr ⟨heach, World.deletesAtRest_closing _ o' x⟩
    refine ⟨⟨World.deletesAtRest_of_ne (by simp), hwhole⟩, fun hx => ?_⟩
    rw [World.replay_cons, World.replay_append, World.replay_closing hx]
    exact hend hx
  | seq h _ ih ih' =>
    obtain ⟨hfirst, hnext⟩ := ht.resolve_right (by simp)
    obtain ⟨heach, hend⟩ := ih hw hrest (Or.inl hfirst)
    obtain ⟨heach', hend'⟩ := ih' (h.sound hw) (hend (by simp)) (Or.inl hnext)
    rw [World.replay_append]
    exact ⟨World.each_append.mpr ⟨heach, heach'⟩, hend'⟩
  | seqStop _ _ ih =>
    obtain ⟨hfirst, -⟩ := ht.resolve_right (by simp)
    exact ih hw hrest (Or.inl hfirst)
  | guarded _ _ ih =>
    obtain ⟨hinner, -⟩ := ht.resolve_right (by simp)
    exact ih hw hrest (Or.inl hinner)
  | @undone t u w es e e' h ih =>
    obtain ⟨hinner, hu⟩ := ht.resolve_right (by simp)
    obtain ⟨heach, hend⟩ := ih hw hrest (Or.inl hinner)
    obtain ⟨heach', hend'⟩ := hquiet (hend (by simp))
      fun e he => Undo.not_touchesDestructors hu he
    rw [World.replay_append]
    exact ⟨World.each_append.mpr ⟨heach, heach'⟩, fun _ => hend'⟩
  | @plain w e _ hplain =>
    have hevent : ∀ e' ∈ [e], ¬ e'.TouchesDestructors o := by
      simpa using hplain.not_touchesDestructors
    obtain ⟨heach, hend⟩ := hquiet hrest hevent
    exact ⟨heach, fun _ => hend⟩
  | @task t w es x havailable _ ih =>
    by_cases hregular : w.registry.Regular
    · rcases havailable.apart hw hregular o with hapart | ⟨g, f, rfl, hg, hobject, hchains, -⟩
      · exact ih hw hrest (Or.inl hapart)
      · -- only a destructor of the object chains to its destructors
        rcases ht with hcode | ⟨-, hown⟩
        · exact hcode.elim
        · exact absurd hchains (hown g hg hobject)
    · refine ⟨World.each_of_not_regular hregular, fun _ hlater => ?_⟩
      exact absurd (hlater.of_growsTo (w.leadsTo_replay es).registry) hregular
  | @andThen w es fs x h _ ih ih' =>
    obtain ⟨heach, hend⟩ := ih hw hrest ht
    -- the current frame is still the same one
    have hown : Task.code.StaysApart o (w.replay es) := by
      unfold Task.StaysApart
      rw [(h.keeps (by simp)).stack]
      exact ht
    obtain ⟨heach', hend'⟩ := ih' (h.sound hw) (hend (by simp)) hown
    rw [World.replay_append]
    exact ⟨World.each_append.mpr ⟨heach, heach'⟩, hend'⟩
  | ends _ hx _ ih =>
    obtain ⟨heach, hend⟩ := ih hw hrest ht
    exact ⟨heach, fun _ => hend hx⟩

end

/-! ### Sessions -/

namespace Session

/-- At this moment of a session the object begins to be deleted. -/
def BeginsDeletion (opts : EngineOptions) (w : World) (o : ObjectId) : Prop :=
  ∃ loads es before after,
    history loads (World.initial opts) es = before ++ .deletionBegun o :: after ∧
      w = (World.initial opts).replay before

variable {opts : EngineOptions} {w : World} {o : ObjectId}

theorem BeginsDeletion.stretch (h : BeginsDeletion opts w o) :
    Stretch opts w [.deletionBegun o] := by
  obtain ⟨loads, es, before, after, hes, hw⟩ := h
  exact ⟨loads, es, before, after, by rw [hes, List.append_assoc, List.singleton_append], hw⟩

theorem BeginsDeletion.sound (h : BeginsDeletion opts w o) : w.Sound :=
  h.stretch.sound

/-- **A deletion that begins while no destructor of the object is running finds the
object at rest.** -/
theorem BeginsDeletion.atRest (h : BeginsDeletion opts w o) (hregular : w.registry.Regular)
    (houtermost : ¬ w.RunsDestructor o) : w.AtRest o := by
  have hrest : (World.initial opts).AtRest o := World.atRest_of_get? rfl
  have hown : Task.code.StaysApart o (World.initial opts) := Or.inr ⟨rfl, by
    intro g hg
    cases hg⟩
  have heach : w.Each (World.DeletesAtRest o) [.deletionBegun o] :=
    h.stretch.each fun loads es => by
      obtain ⟨x, hcourse⟩ := history_course (World.sound_initial opts) loads es
      exact (hcourse.atRest (World.sound_initial opts) (fun _ => hrest) hown).1
  exact (heach.1 rfl hregular).resolve_left houtermost

end Session

end ObjectDispatch
