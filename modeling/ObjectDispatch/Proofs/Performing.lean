import ObjectDispatch.Proofs.Course

/-!
# Runs that perform tasks

A run performs a task from a state when the events that it lets happen there are a
course of the task.  The rules of this module follow a run step by step: a look at
the world tells which rule applies, an event is what the task begins with, runs in
sequence perform tasks in sequence, and what is caught is undone.

## Main definitions

* `Run.Performs` — the events of a run from one state are a course of a task.
* `Run.Conforms` — from every sound state, a run is a course of running code.

## Main results

* `Run.performs_bind`, `Run.performs_guarded` — tasks one after the other.
* `Run.conforms_law` — running code can be put together in every way.
-/

namespace ObjectDispatch

theorem State.sound_after (s : State) (hs : s.world.Sound) (e : Event) (he : s.world.Admits e) :
    (s.after e).world.Sound :=
  hs.after he

/-- A task that begins and is followed by another begins the two of them. -/
theorem Course.seq_begins {t t' n : Task} {w : World} {evs es : List Event} {x : Outcome Unit}
    (h : t.Begins w evs t') (h' : Course (.seq t' n) (w.replay evs) es x) :
    Course (.seq t n) w (evs ++ es) x := by
  cases h' with
  | cut => exact .seqStop (.begins h (.cut _ _)) nofun
  | gone _ ht => cases ht
  | begins h' => cases h'
  | seq h₁ h₂ =>
    rw [← List.append_assoc]
    refine .seq (.begins h h₁) ?_
    rw [World.replay_append]
    exact h₂
  | seqStop h' hx => exact .seqStop (.begins h h') hx

namespace Run

variable {α β : Type} {t t' n : Task} {s : State}

/-- From the state `s` on, the events of the run are a course of the task. -/
def Performs (t : Task) (r : Run α) (s : State) : Prop :=
  ∃ es, (r s).2 = es.foldl State.after s ∧ Course t s.world es (r s).1.ending

/-- From every sound state on, the events of the run are a course of running
code. -/
def Conforms (r : Run α) : Prop := ∀ s, s.world.Sound → r.Performs .code s

/-! ### Runs of one step -/

theorem performs_of_apply {r : Run α} {out : Outcome α} (hrun : r s = (out, s))
    (h : Course t s.world [] out.ending) : r.Performs t s := by
  refine ⟨[], ?_, ?_⟩
  · rw [hrun]
    rfl
  · rw [hrun]
    exact h

theorem performs_look_bind {g : World → Except DispatchError α} {f : α → Run β}
    (hok : ∀ a, g s.world = .ok a → (f a).Performs t s)
    (herr : ∀ e, g s.world = .error e → Course t s.world [] (.failure e)) :
    (look g >>= f).Performs t s := by
  cases hg : g s.world with
  | ok a =>
    unfold Performs
    rw [look_bind_of_ok hg]
    exact hok a hg
  | error e => exact performs_of_apply (look_bind_of_error hg) (herr e hg)

/-- A task fails without the object that it is about. -/
theorem performs_objectAt_bind {o : ObjectId} (ht : t.subject? = some o) {f : Object → Run β}
    (hf : ∀ ob, s.world.objects.get? o = some ob → (f ob).Performs t s) :
    (look (·.objectAt o) >>= f).Performs t s :=
  performs_look_bind (fun ob hob => hf ob (World.objectAt_eq_ok_iff.mp hob))
    fun e he => .gone e ht (World.get?_eq_none_of_objectAt he)

theorem performs_classAt_bind {k : ClassId} {c : Class} (hc : s.world.registry.get? k = some c)
    {f : Class → Run β} (hf : (f c).Performs t s) : (look (·.classAt k) >>= f).Performs t s := by
  unfold Performs
  rw [look_bind_of_ok (World.classAt_eq hc)]
  exact hf

/-- Changing what is not an event changes nothing. -/
theorem performs_map {r : Run α} (h : r.Performs t s) (b : β) :
    (r >>= fun _ => pure b).Performs t s := by
  obtain ⟨es, hend, hcourse⟩ := h
  refine ⟨es, ?_⟩
  rw [bind_apply]
  cases hrun : r s with
  | mk out u =>
    rw [hrun] at hend hcourse
    cases out <;> exact ⟨hend, hcourse⟩

/-! ### Tasks that begin -/

/-- A run that goes on as another one after some events performs a task that goes on as
the task of the other one. -/
theorem performs_of_replay {evs : List Event} {r r' : Run α}
    (hrun : r s = r' (evs.foldl State.after s)) (hr : r'.Performs t' (evs.foldl State.after s))
    (ht : ∀ {es x}, Course t' (s.world.replay evs) es x → Course t s.world (evs ++ es) x) :
    r.Performs t s := by
  obtain ⟨es, hend, hcourse⟩ := hr
  rw [State.world_foldl_after] at hcourse
  refine ⟨evs ++ es, ?_, ?_⟩
  · rw [hrun, hend, List.foldl_append]
  · rw [hrun]
    exact ht hcourse

theorem performs_begins {evs : List Event} {r r' : Run α} (h : t.Begins s.world evs t')
    (hrun : r s = r' (evs.foldl State.after s)) (hr : r'.Performs t' (evs.foldl State.after s)) :
    r.Performs t s :=
  performs_of_replay hrun hr (.begins h)

theorem performs_begins_nil {r : Run α} (h : t.Begins s.world [] t') (hr : r.Performs t' s) :
    r.Performs t s :=
  performs_begins h rfl hr

theorem performs_happen_bind {e : Event} {f : Unit → Run α} (h : t.Begins s.world [e] t')
    (hf : (f ()).Performs t' (s.after e)) : (happen e >>= f).Performs t s :=
  performs_begins h rfl hf

/-- A task that is over at once. -/
theorem performs_pure (h : t.Begins s.world [] .done) (a : α) : (pure a : Run α).Performs t s :=
  performs_of_apply rfl (.begins h (.done _))

theorem performs_seq_begins {evs : List Event} {r r' : Run α} (h : t.Begins s.world evs t')
    (hrun : r s = r' (evs.foldl State.after s))
    (hr : r'.Performs (.seq t' n) (evs.foldl State.after s)) : r.Performs (.seq t n) s :=
  performs_of_replay hrun hr (.seq_begins h)

/-- What is over at once leaves what comes after it. -/
theorem performs_seq_of_done {r : Run α} (h : t.Begins s.world [] .done) (hr : r.Performs n s) :
    r.Performs (.seq t n) s := by
  obtain ⟨es, hend, hcourse⟩ := hr
  exact ⟨es, hend, .seq (.begins h (.done _)) hcourse⟩

/-! ### Runs one after the other -/

theorem Performs.sound {r : Run α} (hs : s.world.Sound) (h : r.Performs t s) :
    (r s).2.world.Sound := by
  obtain ⟨es, hend, hcourse⟩ := h
  rw [hend, State.world_foldl_after]
  exact hcourse.sound hs

theorem Performs.leadsTo {r : Run α} (h : r.Performs t s) : s.world.LeadsTo (r s).2.world := by
  obtain ⟨es, hend, -⟩ := h
  rw [hend, State.world_foldl_after]
  exact World.leadsTo_replay _ _

/-- What runs next begins in a sound world that comes after the first one.  The
rules for two tasks are those for `p`. -/
theorem performs_bind_of {p : Task} {r : Run α} {f : α → Run β} (hs : s.world.Sound)
    (hstop : ∀ es x, Course t s.world es x → x ≠ .value () → Course p s.world es x)
    (hgoOn : ∀ es fs x, Course t s.world es (.value ()) → Course n (s.world.replay es) fs x →
      Course p s.world (es ++ fs) x)
    (hr : r.Performs t s)
    (hf : ∀ a u, r s = (.value a, u) → u.world.Sound → s.world.LeadsTo u.world →
      (f a).Performs n u) : (r >>= f).Performs p s := by
  have hsound := hr.sound hs
  have hleads := hr.leadsTo
  obtain ⟨es, hend, hcourse⟩ := hr
  unfold Performs
  rw [bind_apply]
  cases hrun : r s with
  | mk out u =>
    rw [hrun] at hsound hleads hend hcourse
    simp only at hsound hleads hend hcourse
    cases out with
    | value a =>
      obtain ⟨fs, hend', hcourse'⟩ := hf a u hrun hsound hleads
      have hworld : u.world = s.world.replay es := by rw [hend, State.world_foldl_after]
      rw [hworld] at hcourse'
      refine ⟨es ++ fs, ?_, hgoOn es fs _ hcourse hcourse'⟩
      rw [List.foldl_append, ← hend]
      exact hend'
    | failure e => exact ⟨es, hend, hstop es _ hcourse nofun⟩
    | exhausted => exact ⟨es, hend, hstop es _ hcourse nofun⟩

theorem performs_bind {r : Run α} {f : α → Run β} (hs : s.world.Sound) (hr : r.Performs t s)
    (hf : ∀ a u, r s = (.value a, u) → u.world.Sound → s.world.LeadsTo u.world →
      (f a).Performs n u) : (r >>= f).Performs (.seq t n) s :=
  performs_bind_of hs (fun _ _ => .seqStop) (fun _ _ _ => .seq) hr hf

theorem performs_code_bind {r : Run α} {f : α → Run β} (hs : s.world.Sound)
    (hr : r.Performs .code s)
    (hf : ∀ a u, r s = (.value a, u) → u.world.Sound → s.world.LeadsTo u.world →
      (f a).Performs .code u) : (r >>= f).Performs .code s :=
  performs_bind_of hs (fun _ _ h _ => h) (fun _ _ _ => .andThen) hr hf

theorem performs_forM {γ : Type} {g : γ → Run Unit} {task : γ → Task} {as : List γ}
    (hs : s.world.Sound)
    (hg : ∀ a ∈ as, ∀ u, u.world.Sound → s.world.LeadsTo u.world → (g a).Performs (task a) u) :
    (as.forM g).Performs (.all (as.map task)) s := by
  induction as generalizing s with
  | nil => exact performs_of_apply rfl (.done _)
  | cons a as ih =>
    refine performs_bind hs (hg a List.mem_cons_self s hs (.refl _)) fun _ u _ hu hleads => ?_
    exact ih hu fun b hb v hv hleads' =>
      hg b (List.mem_cons_of_mem a hb) v hv (hleads.trans hleads')

/-- What is attempted is undone when it fails. -/
theorem performs_guarded {u : Undo} {r : Run α} {k : Except DispatchError α → Run β}
    (hs : s.world.Sound) (hr : r.Performs t s)
    (hok : ∀ a v, r s = (.value a, v) → v.world.Sound → s.world.LeadsTo v.world →
      (k (.ok a)).Performs n v)
    (herr : ∀ e v, r s = (.failure e, v) → ∃ e',
      k (.error e) v = (.failure e', (u.events v.world).foldl State.after v)) :
    (attempt r >>= k).Performs (.seq (.guarded t u) n) s := by
  have hsound := hr.sound hs
  have hleads := hr.leadsTo
  obtain ⟨es, hend, hcourse⟩ := hr
  cases hrun : r s with
  | mk out v =>
    rw [hrun] at hsound hleads hend hcourse
    simp only at hsound hleads hend hcourse
    have hworld : v.world = s.world.replay es := by rw [hend, State.world_foldl_after]
    cases out with
    | value a =>
      have hgoOn : (attempt r >>= k) s = k (.ok a) v := by
        rw [bind_apply, attempt_apply, hrun]
      obtain ⟨fs, hend', hcourse'⟩ := hok a v hrun hsound hleads
      rw [hworld] at hcourse'
      unfold Performs
      rw [hgoOn]
      refine ⟨es ++ fs, ?_, .seq (.guarded hcourse nofun) hcourse'⟩
      rw [List.foldl_append, ← hend]
      exact hend'
    | failure e =>
      -- what comes next does no more than to undo, and passes on an error
      obtain ⟨e', hundo⟩ := herr e v hrun
      have hstop : (attempt r >>= k) s = (.failure e', (u.events v.world).foldl State.after v) := by
        rw [← hundo, bind_apply, attempt_apply, hrun]
      unfold Performs
      rw [hstop]
      refine ⟨es ++ u.events (s.world.replay es), ?_, .seqStop (.undone e' hcourse) nofun⟩
      rw [List.foldl_append, ← hend, ← hworld]
    | exhausted =>
      have hcut : (attempt r >>= k) s = (.exhausted, v) := by
        rw [bind_apply, attempt_apply, hrun]
      unfold Performs
      rw [hcut]
      exact ⟨es, hend, .seqStop (.guarded hcourse nofun) nofun⟩

/-- A run while an object is under construction. -/
def building (o : ObjectId) (r : Run Unit) : Run Unit := do
  happen (.constructionBegun o)
  let result ← attempt r
  happen (.constructionEnded o)
  answer result

/-- A construction ends however the run in it ends. -/
theorem attempt_building_bind (o : ObjectId) (r : Run Unit)
    (k : Except DispatchError Unit → Run α) :
    (do
      happen (.constructionBegun o)
      let result ← attempt r
      happen (.constructionEnded o)
      k result) = attempt (building o r) >>= k := by
  funext s
  simp only [building, bind_apply, happen_apply, attempt_apply]
  cases r (s.after (.constructionBegun o)) with
  | mk out u => cases out <;> rfl

theorem performs_building {o : ObjectId} {r : Run Unit}
    (hr : r.Performs t (s.after (.constructionBegun o))) :
    (building o r).Performs (.building o t) s := by
  obtain ⟨es, hend, hcourse⟩ := hr
  unfold Performs
  simp only [building, bind_apply, happen_apply, attempt_apply]
  cases hrun : r (s.after (.constructionBegun o)) with
  | mk out u =>
    rw [hrun] at hend hcourse
    simp only at hend
    have hbuilding : Course (.building o t) s.world
        (.constructionBegun o :: (es ++ out.ending.closing o)) out.ending := .building hcourse
    refine ⟨.constructionBegun o :: (es ++ out.ending.closing o), ?_, ?_⟩
    · rw [List.foldl_cons, List.foldl_append, ← hend]
      cases out <;> rfl
    · cases out <;> exact hbuilding

/-! ### Running code -/

theorem performs_task {r : Run α} (ht : s.world.Available t) (h : r.Performs t s) :
    r.Performs .code s := by
  obtain ⟨es, hend, hcourse⟩ := h
  exact ⟨es, hend, .task ht hcourse⟩

theorem performs_code_of_apply {r : Run α} {out : Outcome α} (hrun : r s = (out, s)) :
    r.Performs .code s := by
  refine performs_of_apply hrun ?_
  cases out with
  | value a => exact .idle _
  | failure e => exact .ends (.idle _) nofun nofun
  | exhausted => exact .cut _ _

theorem performs_code_look_bind {g : World → Except DispatchError α} {f : α → Run β}
    (hok : ∀ a, g s.world = .ok a → (f a).Performs .code s) : (look g >>= f).Performs .code s :=
  performs_look_bind hok fun _ _ => .ends (.idle _) nofun nofun

/-- What code does after it has chained: it goes on as it likes, or it has taken up the task
that it chains to. -/
def PerformsChained (r : Run α) (s : State) : Prop :=
  r.Performs .code s ∨ ∃ t : Task, t.IsOnward ∧ s.world.Available (.chain t) ∧ r.Performs t s

theorem performs_chained_bind {f : Unit → Run α} (hs : s.world.Sound)
    (hf : (f ()).PerformsChained (s.after .chained)) :
    (happen .chained >>= f).Performs .code s := by
  rcases hf with hcode | ⟨t, honward, ht, hf⟩
  · refine performs_code_bind hs ⟨[.chained], rfl, .plain trivial trivial⟩ ?_
    rintro _ u ⟨⟩ - -
    exact hcode
  · have hchain : s.world.Available (.chain t) := ht
    exact performs_task hchain (performs_happen_bind (.chain honward) hf)

theorem performsChained_look_bind {g : World → Except DispatchError α} {f : α → Run β}
    (hok : ∀ a, g s.world = .ok a → (f a).PerformsChained s) :
    (look g >>= f).PerformsChained s := by
  cases hg : g s.world with
  | ok a =>
    unfold PerformsChained Performs
    rw [look_bind_of_ok hg]
    exact hok a hg
  | error e => exact Or.inl (performs_code_of_apply (look_bind_of_error hg))

theorem performsChained_world_bind {f : World → Run β} (hf : (f s.world).PerformsChained s) :
    (world >>= f).PerformsChained s := hf

theorem conforms_happen (e : Event) (he : ∀ w : World, w.Admits e) (hplain : e.IsPlain) :
    (happen e).Conforms :=
  fun s _ => ⟨[e], rfl, .plain (he s.world) hplain⟩

theorem conforms_law : Run.Law Conforms where
  pure _ _ _ := performs_code_of_apply rfl
  fail _ _ _ := performs_code_of_apply rfl
  exhaust _ _ := performs_code_of_apply rfl
  world _ _ := performs_code_of_apply rfl
  look g s _ := performs_code_of_apply (look_apply g s)
  bind hr hf s hs := performs_code_bind hs (hr s hs) fun a u _ hu _ => hf a u hu
  attempt {α r} hr s hs := by
    obtain ⟨es, hend, hcourse⟩ := hr s hs
    refine ⟨es, ?_⟩
    rw [attempt_apply]
    cases hrun : r s with
    | mk out u =>
      rw [hrun] at hend hcourse
      cases out with
      | failure e => exact ⟨hend, .ends hcourse nofun nofun⟩
      | _ => exact ⟨hend, hcourse⟩

theorem conforms_assignmentLaw : AssignmentLaw Conforms where
  toCompositional := conforms_law.toCompositional
  assigned o x v := conforms_happen (.assigned o x v) (fun _ => trivial) trivial
  cleared o x := conforms_happen (.cleared o x) (fun _ => trivial) trivial

end Run

end ObjectDispatch
