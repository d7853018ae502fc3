import ObjectDispatch.Proofs.Deletion
import ObjectDispatch.Proofs.Handling

/-!
# Destructors that have returned

A destructor is marked as begun before it runs, by a deletion and by the destructors that
chain to it alike, and the mark does not say how the run ends.  When the deletion itself
runs the destructor, a failure ends the deletion.  A destructor that chains can catch the
failure of what it chains to, though, and the mark stays: the deletion goes on without the
destructor that has failed, or that was refused for want of room.

This is the only way.  Every mark is followed by a run of the destructor in a frame of its
own, and what has begun in a deletion has ended by the time that its class is reached.  So
when a deletion has succeeded, each destructor of the heritage has returned, unless code
has chained to it in vain and has caught the error, or it counted as begun before.

## Main definitions

* `HasReturned` — a run of a destructor has ended without an error.
* `FailsChained` — code has chained to a destructor, and its run has failed.
* `Accounted` — what has become of a destructor that counts as begun.

## Main results

* `Course.accounted` — every mark is followed by a run.
* `Course.returned_of_all` — what has become of the destructors of a heritage.
* `destructors_of_successful_deletion` — **which destructors have returned.**
-/

namespace ObjectDispatch

/-! ### What counts as begun -/

/-- The object is there, and the destructor of the class counts as begun. -/
def World.CountsAsBegun (w : World) (o : ObjectId) (k : ClassId) : Prop :=
  ∃ ob, w.objects.get? o = some ob ∧ ob.isDestructed k = true

section

variable {o : ObjectId} {k : ClassId} {f : MemberFunction} {w : World} {t t' : Task}
variable {before after evs es fs : List Event} {x y : Outcome Unit} {c : Class}

/-- What counts as begun after a mark. -/
theorem World.exists_of_destructorMarked {j : ClassId} {ob' : Object}
    (hob' : (w.after (.destructorMarked o j)).objects.get? o = some ob') :
    ∃ ob, w.objects.get? o = some ob ∧
      ∀ k, ob'.isDestructed k = true ↔ ob.isDestructed k = true ∨ k = j := by
  rcases World.cases_of_get?_after hob' with ⟨ob, hob, rfl⟩ | ⟨-, _, _, hevent, -⟩
  · refine ⟨ob, hob, fun k => ?_⟩
    rw [Event.isDestructed_change (e := .destructorMarked o j) nofun,
      Event.destructorMarked.injEq, eq_self, true_and, eq_comm (a := j)]
  · cases hevent

/-- The destructors that count as begun after an event counted before it, or have been
marked; unless they have been forgotten or the object is new, so that none of them
counts. -/
theorem World.isDestructed_after {e : Event} {ob' : Object}
    (hob' : (w.after e).objects.get? o = some ob') :
    (∃ ob, w.objects.get? o = some ob ∧
      ∀ k, ob'.isDestructed k = true ↔ ob.isDestructed k = true ∨ e = .destructorMarked o k) ∨
    (e = .destructorsForgotten o ∨ w.objects.get? o = none) ∧ ∀ k, ob'.isDestructed k = false := by
  rcases World.cases_of_get?_after hob' with ⟨ob, hob, rfl⟩ | ⟨hdead, _, _, -, -, rfl⟩
  · by_cases hforget : e = .destructorsForgotten o
    · refine Or.inr ⟨Or.inl hforget, fun k => ?_⟩
      rw [hforget, Event.change_destructorsForgotten]
      rfl
    · exact Or.inl ⟨ob, hob, Event.isDestructed_change hforget ob⟩
  · exact Or.inr ⟨Or.inr hdead, fun _ => rfl⟩

/-- What counts as begun at the end counted before, or has been marked. -/
theorem World.countsAsBegun_of_replay (h : (w.replay es).CountsAsBegun o k) :
    w.CountsAsBegun o k ∨ .destructorMarked o k ∈ es := by
  induction es generalizing w with
  | nil => exact Or.inl h
  | cons e es ih =>
    rcases ih h with ⟨ob₁, hob₁, hk₁⟩ | hmark
    · rcases World.isDestructed_after hob₁ with ⟨ob, hob, hmarks⟩ | ⟨-, hnone⟩
      · refine ((hmarks k).mp hk₁).imp (fun hk => ⟨ob, hob, hk⟩) ?_
        rintro rfl
        exact List.mem_cons_self
      · rw [hnone k] at hk₁
        cases hk₁
    · exact Or.inr (List.mem_cons_of_mem e hmark)

/-- Where nothing is marked, nothing comes to count as begun. -/
theorem World.CountsAsBegun.of_replay (h : (w.replay es).CountsAsBegun o k)
    (hes : ∀ e ∈ es, e.IsIncidental) : w.CountsAsBegun o k :=
  (countsAsBegun_of_replay h).resolve_right fun hmark =>
    (hes _ hmark).ne_destructorMarked o k rfl

/-- When destructors have been forgotten, none counts. -/
theorem World.not_countsAsBegun_of_forget (w : World) (o : ObjectId) (k : ClassId) :
    ¬ (w.replay ((Undo.forget o).events w)).CountsAsBegun o k := by
  rintro ⟨ob', hob', hk⟩
  cases hob : w.objects.get? o with
  | none =>
    simp [Undo.events, Undo.object, hob] at hob'
  | some ob =>
    have hforgotten : (Undo.forget o).events w = [.destructorsForgotten o] := by
      simp [Undo.events, Undo.object, Undo.event, hob]
    have hob' : (w.after (.destructorsForgotten o)).objects.get? o = some ob' := by
      rwa [hforgotten] at hob'
    rcases World.cases_of_get?_after hob' with ⟨_, -, rfl⟩ | ⟨hdead, -⟩
    · rw [Event.change_destructorsForgotten] at hk
      cases hk
    · rw [hob] at hdead
      cases hdead

/-! ### How runs have ended -/

variable (o f) in
/-- A run of the function on the object has ended without an error. -/
def HasReturned (es : List Event) : Prop :=
  ∃ r ∈ endedRuns [] es, r.frame.object = some o ∧ r.activity = .body f ∧ r.failure = none

variable (o f) in
/-- The destructor is marked as begun, and then its run on the object fails or is
refused. -/
def MarkedInVain (es : List Event) : Prop :=
  ∃ g run, es = .destructorMarked o f.owner :: run ∧ g.object = some o ∧ FailedRun g (.body f) run

variable (o f) in
/-- Code chains to the destructor, and its run on the object fails or is refused. -/
def FailsChained (_ : World) (es : List Event) : Prop :=
  ∃ before run after, es = before ++ .chained :: (run ++ after) ∧ MarkedInVain o f run

theorem HasReturned.within (h : HasReturned o f es) (hpart : EndsWithin es fs) :
    HasReturned o f fs := by
  obtain ⟨r, hr, hrest⟩ := h
  exact ⟨r, hpart hr, hrest⟩

theorem persists_failsChained : Persists (FailsChained o f) := by
  rintro w _ earlier later ⟨before, run, after, rfl, hvain⟩
  exact ⟨earlier ++ before, run, after ++ later, by simp, hvain⟩

/-- What the task chains to as a destructor runs on the object, and for the class `k` it
is `f`. -/
def Task.ChainsTo (k : ClassId) (f : MemberFunction) : Task → Prop
  | .destructOnward _ g => g.flags.isCommon = false ∧ (g.owner = k → g = f)
  | .building _ t | .guarded t _ | .chain t => t.ChainsTo k f
  | .seq t next => t.ChainsTo k f ∧ next.ChainsTo k f
  | _ => True

theorem Task.chainsTo_all {ts : List Task} (h : ∀ t ∈ ts, t.ChainsTo k f) :
    (Task.all ts).ChainsTo k f :=
  Task.all_of_forall trivial And.intro h

/-- Running code chains to the destructors that classes have. -/
theorem World.Available.chainsTo (ht : w.Available t) (hw : w.Sound)
    (hc : w.registry.get? k = some c) (hf : c.function? destructorName = some f) :
    t.ChainsTo k f := by
  cases ht with
  | @destructOnward g o' f' hg htarget _ hdtor _ =>
    obtain ⟨-, m, -, j, d, -, -, -, -, -, -, hd, hfd⟩ := World.exists_of_chainTarget htarget
    obtain ⟨howner, hname, howned⟩ := hw.built.function?_spec hd hfd
    refine ⟨by rw [howned.flags_of_destructor hdtor], ?_⟩
    rintro rfl
    rw [howner] at hc
    cases hd.symm.trans hc
    -- it is found under its name, which is that of destructors
    rw [← hname, howned.name_of_destructor hdtor, hf] at hfd
    exact (Option.some.inj hfd).symm
  | _ => trivial

/-- Nothing but running code chains. -/
theorem Task.Begins.chainsTo (h : t.Begins w evs t') (ht : t.ChainsTo k f) :
    t'.ChainsTo k f := by
  cases h with
  | create => exact ⟨trivial, trivial⟩
  | constructSupers => exact Task.chainsTo_all (by simp [Task.ChainsTo])
  | @constructor o' g =>
    refine ⟨?_, Task.chainsTo_all (by simp [Task.ChainsTo]), trivial⟩
    unfold MemberFunction.initialization
    cases g.initializer <;> trivial
  | delete => exact ⟨Task.chainsTo_all (by simp [Task.ChainsTo]), trivial⟩
  | chain => exact ht
  | @assign o' v =>
    unfold Variable.hooking
    cases v.hook with
    | none => trivial
    | some code => exact ⟨trivial, trivial⟩
  | _ => trivial

/-- The task is to run the destructor on the object because another one has chained to
it, or a part of the task is. -/
def Task.RunsOnward (o : ObjectId) (f : MemberFunction) : Task → Prop
  | .destructOnward o' g => o' = o ∧ g = f
  | .building _ t | .guarded t _ => t.RunsOnward o f
  | .seq t next => t.RunsOnward o f ∨ next.RunsOnward o f
  | _ => False

theorem Task.not_runsOnward_all {ts : List Task} (h : ∀ t ∈ ts, ¬ t.RunsOnward o f) :
    ¬ (Task.all ts).RunsOnward o f :=
  Task.all_of_forall (P := fun t => ¬ t.RunsOnward o f) id (fun ht hnext h => h.elim ht hnext) h

/-- Only where code chains a task goes on so. -/
theorem Task.Begins.eq_chain (h : t.Begins w evs t') (ht' : t'.RunsOnward o f) :
    evs = [.chained] ∧ t = .chain (.destructOnward o f) ∧ t' = .destructOnward o f := by
  cases h with
  | chain honward =>
    cases t' with
    | destructOnward =>
      obtain ⟨rfl, rfl⟩ := ht'
      exact ⟨rfl, rfl, rfl⟩
    | «constructor» => exact ht'.elim
    | _ => exact honward.elim
  | create => exact (ht'.elim id id).elim
  | constructSupers => exact (Task.not_runsOnward_all (by simp [Task.RunsOnward]) ht').elim
  | @constructor o' g =>
    rcases ht' with ht' | ht' | ht'
    · unfold MemberFunction.initialization at ht'
      split at ht' <;> exact ht'.elim
    · exact (Task.not_runsOnward_all (by simp [Task.RunsOnward]) ht').elim
    · exact ht'.elim
  | delete =>
    rcases ht' with ht' | ht'
    · exact (Task.not_runsOnward_all (by simp [Task.RunsOnward]) ht').elim
    · exact ht'.elim
  | @assign o' v =>
    unfold Variable.hooking at ht'
    split at ht'
    · exact ht'.elim
    · exact (ht'.elim id id).elim
  | _ => exact ht'.elim

theorem World.Available.not_runsOnward (ht : w.Available t) : ¬ t.RunsOnward o f := by
  cases ht <;> exact id

/-! ### Every mark is followed by a run -/

variable (o f) in
/-- What has become of a destructor that has come to count as begun: it has returned, or
it has failed, and so has what has chained to it, unless that was code. -/
inductive Accounted (t : Task) (w : World) (es : List Event) (x : Outcome Unit) : Prop
  | returned (h : HasReturned o f es)
  | handled (h : Handled (FailsChained o f) t w es x)
  | own (hx : ∃ e, x = .failure e) (ht : t.RunsOnward o f)
      (h : t = .destructOnward o f → MarkedInVain o f es)

/-- What is accounted for in a part of a task is so in the task. -/
theorem Accounted.part (before after : List Event) (h : Accounted o f t (w.replay before) es x)
    (hfs : fs = before ++ es ++ after) (hpart : EndsWithin es fs)
    (hend : t'.Framed → y = .value () → t.Framed ∧ x = .value ())
    (hown : (∃ e, x = .failure e) → t.RunsOnward o f →
      (∃ e, y = .failure e) ∧ t'.RunsOnward o f ∧ t' ≠ .destructOnward o f) :
    Accounted o f t' w fs y := by
  cases h with
  | returned h => exact .returned (h.within hpart)
  | handled h => exact .handled (h.part persists_failsChained before after hfs hend)
  | own hx ht =>
    obtain ⟨hy, ht', hnot⟩ := hown hx ht
    exact .own hy ht' fun heq => absurd heq hnot

theorem Accounted.whole (h : Accounted o f t w es x)
    (hend : t'.Framed → y = .value () → t.Framed ∧ x = .value ())
    (hown : (∃ e, x = .failure e) → t.RunsOnward o f →
      (∃ e, y = .failure e) ∧ t'.RunsOnward o f ∧ t' ≠ .destructOnward o f) :
    Accounted o f t' w es y :=
  h.part [] [] (List.append_nil _).symm (.refl es) hend hown

/-- When a destructor is marked, what is left to do is to run it. -/
theorem Course.accounted_of_begins (h : t.Begins w evs t') (h' : Course t' (w.replay evs) es x)
    (hx : x ≠ .exhausted) (hc : w.registry.get? k = some c)
    (hf : c.function? destructorName = some f)
    (ht : t.ChainsTo k f)
    (hmark : .destructorMarked o k ∈ evs) (hcounts : (w.replay (evs ++ es)).CountsAsBegun o k) :
    Accounted o f t w (evs ++ es) x := by
  have hright := (balanced_of_isQuiet h.isQuiet).endsWithin_right es
  obtain ⟨rfl, _, -, -, ⟨c', f', rfl, hc', hf', rfl⟩ | ⟨g, howned, rfl, rfl⟩⟩ :=
    h.of_mem_destructorMarked hmark
  · cases hc.symm.trans hc'
    cases hf.symm.trans hf'
    rcases h'.cases_of_guarded with ⟨hframe, hnot⟩ | ⟨fs, e, e', rfl, -, hframe⟩
    · rcases hframe.run_of_frame hx with ⟨-, hran⟩ | ⟨⟨e, hfailed⟩, -⟩
      · exact .returned ⟨_, hright hran, rfl, rfl, rfl⟩
      · exact absurd hfailed (hnot e)
    · -- the deletion has failed, and no destructor counts as begun any more
      rw [World.replay_append, World.replay_append] at hcounts
      exact (World.not_countsAsBegun_of_forget _ o k hcounts).elim
  · -- a destructor that another one has chained to, which is the one of its class
    obtain ⟨hcommon, howner⟩ := ht
    cases howner howned
    have hobject : (f.callFrame (if f.flags.isCommon then none else some o) f.fullName).object =
        some o := by
      rw [hcommon]
      rfl
    rcases h'.run_of_frame hx with ⟨-, hran⟩ | ⟨hfailed, hrun⟩
    · exact .returned ⟨_, hright hran, hobject, rfl, rfl⟩
    · refine .own hfailed ⟨rfl, rfl⟩ fun _ => ⟨_, es, ?_, hobject, hrun⟩
      rw [howned]
      rfl

/-- **Every mark is followed by a run** of the destructor, which has ended when the course
has.  The induction is on the course; of two parts of a task it is the one at the end of
which the destructor comes to count as begun. -/
theorem Course.accounted (h : Course t w es x) (hx : x ≠ .exhausted) (hw : w.Sound)
    (hc : w.registry.get? k = some c) (hf : c.function? destructorName = some f)
    (ht : t.ChainsTo k f)
    (hbefore : ¬ w.CountsAsBegun o k) (hcounts : (w.replay es).CountsAsBegun o k) :
    Accounted o f t w es x := by
  induction h with
  | cut => exact absurd rfl hx
  | done | gone | notCreated | idle => exact absurd hcounts hbefore
  | @begins t t' w evs es x h h' ih =>
    by_cases hmiddle : (w.replay evs).CountsAsBegun o k
    · have hmark := (World.countsAsBegun_of_replay hmiddle).resolve_left hbefore
      exact Course.accounted_of_begins h h' hx hc hf ht hmark hcounts
    · rw [World.replay_append] at hcounts
      have hrest := ih hx (hw.replay h.admitsAll) ((w.leadsTo_replay evs).registry.get? hc)
        (h.chainsTo ht) hmiddle hcounts
      cases hrest with
      | returned hrun =>
        exact .returned (hrun.within ((balanced_of_isQuiet h.isQuiet).endsWithin_right es))
      | handled hhandled =>
        exact .handled (hhandled.part persists_failsChained evs [] (by simp)
          fun hframed hy => ⟨h.framed hframed, hy⟩)
      | own hfailed hchains hvain =>
        -- code has chained to it
        obtain ⟨rfl, rfl, rfl⟩ := h.eq_chain hchains
        refine .handled (Or.inr ⟨⟨[], es, [], by simp, hvain rfl⟩, fun hframed => hframed.elim⟩)
  | @refused w f' a => exact absurd (hcounts.of_replay (by simp [Event.IsIncidental])) hbefore
  | @frame w g a es x hroom h ih =>
    rw [World.replay_cons, World.replay_append] at hcounts
    have hinside := ih hx (hw.after hroom) hc trivial hbefore
      (hcounts.of_replay fun e he => Outcome.isIncidental_of_mem_leaving he)
    cases hinside with
    | returned hrun => exact .returned (hrun.within h.endsWithin_frame)
    | handled hhandled => exact .handled (hhandled.frame persists_failsChained h.balanced)
    | own _ hchains => exact hchains.elim
  | @building o' t w es x h ih =>
    rw [World.replay_cons, World.replay_append] at hcounts
    have hinside := ih hx (hw.after trivial) hc ht hbefore
      (hcounts.of_replay fun e he => Outcome.isIncidental_of_mem_closing he)
    exact hinside.part [.constructionBegun o'] (x.closing o') (by simp)
      (endsWithin_building o' es x) (fun hframed hy => ⟨hframed, hy⟩)
      fun hy hchains => ⟨hy, hchains, nofun⟩
  | @seq t next w es fs x h h' ih ih' =>
    rw [World.replay_append] at hcounts
    by_cases hmiddle : (w.replay es).CountsAsBegun o k
    · have hfirst := ih Outcome.value_ne_exhausted hw hc ht.1 hbefore hmiddle
      refine hfirst.part [] fs rfl (endsWithin_left es fs)
        (fun hframed _ => ⟨hframed.1, rfl⟩) ?_
      rintro ⟨e, hy⟩
      cases hy
    · have hrest := ih' hx (h.sound hw) ((w.leadsTo_replay es).registry.get? hc) ht.2
        hmiddle hcounts
      exact hrest.part es [] (List.append_nil _).symm
        ((h.balanced Outcome.value_ne_exhausted).endsWithin_right fs)
        (fun hframed hy => ⟨hframed.2, hy⟩) fun hy hchains => ⟨hy, Or.inr hchains, nofun⟩
  | @andThen w es fs x h h' ih ih' =>
    rw [World.replay_append] at hcounts
    by_cases hmiddle : (w.replay es).CountsAsBegun o k
    · have hfirst := ih Outcome.value_ne_exhausted hw hc trivial hbefore hmiddle
      exact hfirst.part [] fs rfl (endsWithin_left es fs)
        (fun hframed => hframed.elim) fun _ hchains => hchains.elim
    · have hrest := ih' hx (h.sound hw) ((w.leadsTo_replay es).registry.get? hc)
        trivial hmiddle hcounts
      exact hrest.part es [] (List.append_nil _).symm
        ((h.balanced Outcome.value_ne_exhausted).endsWithin_right fs)
        (fun hframed => hframed.elim) fun _ hchains => hchains.elim
  | @seqStop t next w es x h hstop ih =>
    have hfirst := ih hx hw hc ht.1 hbefore hcounts
    exact hfirst.whole (fun _ hy => absurd hy hstop) fun hy hchains => ⟨hy, Or.inl hchains, nofun⟩
  | @guarded t u w es x h hfail ih =>
    refine (ih hx hw hc ht hbefore hcounts).whole (fun hframed hy => ⟨hframed, hy⟩) ?_
    rintro ⟨e, hy⟩
    exact absurd hy (hfail e)
  | @undone t u w es e e' h ih =>
    rw [World.replay_append] at hcounts
    have hfirst := ih Outcome.failure_ne_exhausted hw hc ht hbefore
      (hcounts.of_replay fun e he => Undo.isIncidental_of_mem_events he)
    exact hfirst.part [] _ rfl (endsWithin_left _ _) (fun _ => nofun)
      fun _ hchains => ⟨⟨e', rfl⟩, hchains, nofun⟩
  | plain _ hplain =>
    exact absurd (hcounts.of_replay (List.forall_mem_singleton.mpr hplain.isIncidental)) hbefore
  | @task t w es x havailable _ ih =>
    have hinside := ih hx hw hc (havailable.chainsTo hw hc hf) hbefore hcounts
    exact hinside.whole (fun hframed => hframed.elim) fun _ hchains =>
      (havailable.not_runsOnward hchains).elim
  | @ends w es x y _ hx' _ ih =>
    have hinside := ih hx' hw hc ht hbefore hcounts
    exact hinside.whole (fun hframed => hframed.elim) fun _ hchains => hchains.elim

/-! ### Deletions -/

/-- A class that has been destructed has returned from its destructor, or that counted as
begun. -/
theorem Course.returned_of_destruct (h : Course (.destruct o k) w es (.value ()))
    (hc : w.registry.get? k = some c) (hf : c.function? destructorName = some f) :
    HasReturned o f es ∨ w.CountsAsBegun o k := by
  rcases h.cases_of_destruct with ⟨-, hx | ⟨⟨e, hx⟩, -⟩ | ⟨-, ⟨c', hc', hnone⟩ | hmarked⟩⟩ |
    ⟨ob, c', f', rest, -, -, hc', hf', rfl, hguarded⟩
  · cases hx
  · cases hx
  · cases hc.symm.trans hc'
    rw [hf] at hnone
    cases hnone
  · exact Or.inr hmarked
  · cases hc.symm.trans hc'
    cases hf.symm.trans hf'
    rcases hguarded.cases_of_guarded with ⟨hframe, -⟩ | ⟨_, _, _, -, hx, -⟩
    · rcases hframe.run_of_frame nofun with ⟨-, hran⟩ | ⟨⟨_, hx⟩, -⟩
      · have hpart := (Balanced.quiet (e := .destructorMarked o k) trivial .nil).endsWithin_right
        exact Or.inl ⟨_, hpart rest hran, rfl, rfl, rfl⟩
      · cases hx
    · cases hx

/-- **What has become of the destructors of a heritage** when all of its classes have been
destructed: what counts as begun when a class is reached has begun before, or code has
chained to it since, and it has ended by then. -/
theorem Course.returned_of_all {ks : List ClassId}
    (h : Course (.all (ks.map (.destruct o))) w es (.value ())) (hw : w.Sound) (hk : k ∈ ks)
    (hc : w.registry.get? k = some c) (hf : c.function? destructorName = some f) :
    HasReturned o f es ∨ IsCaught (FailsChained o f) w es ∨ w.CountsAsBegun o k := by
  induction ks generalizing w es with
  | nil => cases hk
  | cons j ks ih =>
    have h : Course (.seq (.destruct o j) (.all (ks.map (.destruct o)))) w es (.value ()) := h
    obtain ⟨es₁, es₂, rfl, hfirst, hrest⟩ := h.exists_of_seq
    have hleft := endsWithin_left es₁ es₂
    have hright := (hfirst.balanced Outcome.value_ne_exhausted).endsWithin_right es₂
    rcases List.mem_cons.mp hk with rfl | hk
    · exact (hfirst.returned_of_destruct hc hf).imp (·.within hleft) Or.inr
    · rcases ih hrest (hfirst.sound hw) hk ((w.leadsTo_replay es₁).registry.get? hc) with
        hreturned | hcaught | hcounts
      · exact Or.inl (hreturned.within hright)
      · have hpart := hcaught.part es₁ []
        rw [List.append_nil] at hpart
        exact Or.inr (Or.inl hpart)
      · by_cases hbefore : w.CountsAsBegun o k
        · exact Or.inr (Or.inr hbefore)
        · -- an earlier destructor has chained to it
          cases hfirst.accounted nofun hw hc hf trivial hbefore hcounts with
          | returned h => exact Or.inl (h.within hleft)
          | handled h => exact Or.inr (Or.inl ((h.isCaught trivial).part [] es₂))
          | own hx =>
            obtain ⟨_, hx⟩ := hx
            cases hx

/-- The course of a deletion that succeeds. -/
theorem Course.returned_of_delete (h : Course (.delete o) w es (.value ())) (hw : w.Sound)
    {ob : Object} (hob : w.objects.get? o = some ob) {d : Class}
    (hd : w.registry.get? ob.cls = some d) (hk : k ∈ d.heritage)
    (hc : w.registry.get? k = some c) (hf : c.function? destructorName = some f) :
    HasReturned o f es ∨ IsCaught (FailsChained o f) w es ∨ ob.isDestructed k = true := by
  rcases h.cases_of_delete with ⟨-, hx | ⟨⟨e, hx⟩, -⟩⟩ | ⟨ob', d', rest, hob', hd', rfl, hseq⟩
  · cases hx
  · cases hx
  · cases hob.symm.trans hob'
    cases hd.symm.trans hd'
    obtain ⟨es₁, es₂, rfl, hall, -⟩ := hseq.exists_of_seq
    have hbegun : Balanced [.deletionBegun o] := .quiet trivial .nil
    have hpart : EndsWithin es₁ (.deletionBegun o :: (es₁ ++ es₂)) :=
      (endsWithin_left es₁ es₂).trans (hbegun.endsWithin_right _)
    rcases hall.returned_of_all hw hk hc hf with hreturned | hcaught | ⟨ob₁, hob₁, hmarked⟩
    · exact Or.inl (hreturned.within hpart)
    · exact Or.inr (Or.inl (hcaught.part (w := w) [.deletionBegun o] es₂))
    · cases hob.symm.trans hob₁
      exact Or.inr (Or.inr hmarked)

/-- **Which destructors have returned** when a deletion that begins at some moment of some
session succeeds, whatever destructors chain, which errors they catch and where the frames
do not fit.  Each destructor of the heritage has returned from a run on the object in this
deletion, unless code has chained to it, its run has failed or was refused, and the error
was caught; or it counted as begun when the deletion began.  Each destructor that the
deletion has run itself is one that has returned: of its own frames each is left without an
error, and none is refused.  Where names are in order, no destructor counts as begun when
the deletion begins, as long as none of the object is running. -/
theorem destructors_of_successful_deletion {opts : EngineOptions}
    (hw : Session.BeginsDeletion opts w o) {ob : Object} (hob : w.objects.get? o = some ob)
    {d : Class} (hd : w.registry.get? ob.cls = some d) {loads frames : Nat} {s : State}
    (hrun : deleteObject (enterFrame (runCode loads frames)) o { world := w } = (.value (), s))
    (hk : k ∈ d.heritage) (hc : w.registry.get? k = some c)
    (hf : c.function? destructorName = some f) :
    (HasReturned o f s.journal.reverse ∨ IsCaught (FailsChained o f) w s.journal.reverse ∨
      ob.isDestructed k = true) ∧
    OwnFramesSucceed w s.journal.reverse ∧
    (w.registry.Regular → ¬ w.RunsDestructor o → ob.isDestructed k = false) := by
  have hperforms := deleteObject_performs (s := { world := w })
    (conforms_evaluationLaw.runCode loads frames) hw.sound o
  obtain ⟨hcourse, -⟩ := hperforms.journal
  rw [hrun] at hcourse
  have hdelete : Course (.delete o) w s.journal.reverse (.value ()) := hcourse
  refine ⟨hdelete.returned_of_delete hw.sound hob hd hk hc hf,
    hdelete.ownFramesSucceed rfl trivial, fun hregular houtermost => ?_⟩
  unfold Object.isDestructed
  rw [hw.atRest hregular houtermost ob hob]
  rfl

end

/-- Where nothing has failed, nothing has failed that code has chained to. -/
theorem FailsChained.not_all {o : ObjectId} {f : MemberFunction} {w : World} {es : List Event}
    (h : FailsChained o f w es) : ¬ es.all (!·.isFailure) = true := by
  obtain ⟨before, _, after, rfl, g, run, rfl, -, hfailed⟩ := h
  obtain ⟨e, he, hfailure⟩ := hfailed.exists_isFailure
  intro hnone
  have hcalm := List.all_eq_true.mp hnone e (by simp [he])
  rw [hfailure] at hcalm
  cases hcalm

/-- The event is the beginning of a deletion of the object. -/
def Event.beginsDeletion (o : ObjectId) : Event → Bool
  | .deletionBegun o' => o' = o
  | _ => false

/-- An object begins to be deleted where the history says so. -/
theorem Session.beginsDeletion_of_history {opts : EngineOptions} {loads : Nat} {steps : List Expr}
    {n : Nat} {o : ObjectId}
    (h : ((history loads (World.initial opts) steps).drop n).head?.any
      (·.beginsDeletion o) = true) :
    BeginsDeletion opts
      ((World.initial opts).replay ((history loads (World.initial opts) steps).take n)) o := by
  obtain ⟨e, he, hbegins⟩ : ∃ e, ((history loads (World.initial opts) steps).drop n).head? =
      some e ∧ e.beginsDeletion o = true := by
    cases hhead : ((history loads (World.initial opts) steps).drop n).head? with
    | none =>
      rw [hhead] at h
      cases h
    | some e =>
      rw [hhead] at h
      exact ⟨e, rfl, h⟩
  cases e with
  | deletionBegun o' =>
    have ho : o' = o := by simpa [Event.beginsDeletion] using hbegins
    subst ho
    refine ⟨loads, steps, _, ((history loads (World.initial opts) steps).drop n).tail, ?_, rfl⟩
    rw [← List.eq_cons_of_mem_head? he, List.take_append_drop]
  | _ => cases hbegins

/-- Defines a class with this destructor, and one that inherits from it and whose destructor
chains and catches errors; creates an object of the second and deletes it. -/
def lodges (ground : Expr) : List Expr :=
  [.sequence [
    .defineClass { name := "Ground", members := [.dtor ground] },
    .defineClass
      { name := "Lodge", inherits := ["Ground"], members := [.dtor (.guarded (.chain []))] },
    .create (some (.const (.str "Lodge"))) (.const (.str "l")) []],
    .delete (some (.const (.str "l")))]

/-- The world in which the object begins to be deleted. -/
def lodgeWorld (ground : Expr) : World :=
  (World.initial {}).replay ((Session.history 0 (World.initial {}) (lodges ground)).take 7)

/-- The deletion of the object. -/
def lodgeRun (ground : Expr) : Outcome Unit × State :=
  deleteObject (enterFrame (runCode 0 2)) ⟨1⟩ { world := lodgeWorld ground }

/-- The deletion begins at that moment and succeeds, and the first class has a destructor,
which has not begun. -/
structure LodgeFalls (ground : Expr) : Prop where
  begins : ((Session.history 0 (World.initial {}) (lodges ground)).drop 7).head?.any
    (·.beginsDeletion ⟨1⟩) = true
  succeeds : (lodgeRun ground).1 = .value ()
  object : ((lodgeWorld ground).objects.get? ⟨1⟩).map (fun ob => (ob.cls, ob.isDestructed ⟨0⟩)) =
    some (⟨1⟩, false)
  heritage : ((lodgeWorld ground).registry.get? ⟨1⟩).map (·.heritage) = some [⟨1⟩, ⟨0⟩]
  destructor : ((lodgeWorld ground).registry.get? ⟨0⟩).bind (fun c =>
    (c.function? destructorName).map fun f => (f.owner, f.flags)) =
      some (⟨0⟩, { isDestructor := true })

/-- What the deletion is about. -/
theorem LodgeFalls.exists_destructor {ground : Expr} (h : LodgeFalls ground) :
    ∃ ob d c f, (lodgeWorld ground).objects.get? ⟨1⟩ = some ob ∧
      (lodgeWorld ground).registry.get? ob.cls = some d ∧ ⟨0⟩ ∈ d.heritage ∧
      (lodgeWorld ground).registry.get? ⟨0⟩ = some c ∧ c.function? destructorName = some f ∧
      f.owner = ⟨0⟩ ∧ f.flags.isDestructor = true ∧ ob.isDestructed ⟨0⟩ = false := by
  obtain ⟨ob, hob, hparts⟩ := Option.map_eq_some_iff.mp h.object
  obtain ⟨d, hd, hheritage⟩ := Option.map_eq_some_iff.mp h.heritage
  obtain ⟨c, hc, hfun⟩ := Option.bind_eq_some_iff.mp h.destructor
  obtain ⟨f, hf, hflags⟩ := Option.map_eq_some_iff.mp hfun
  simp only [Prod.mk.injEq] at hparts hflags
  refine ⟨ob, d, c, f, hob, hparts.1 ▸ hd, ?_, hc, hf, hflags.1, by rw [hflags.2], hparts.2⟩
  rw [hheritage]
  decide

theorem LodgeFalls.run_eq {ground : Expr} (h : LodgeFalls ground) :
    lodgeRun ground = (.value (), (lodgeRun ground).2) := by
  rw [← h.succeeds]

/-- A destructor that succeeds. -/
def quietGround : Expr := .log (.const (.str "ground"))

theorem lodgeFalls_quietGround : LodgeFalls quietGround :=
  ⟨by decide +kernel, by decide +kernel, by decide +kernel, by decide +kernel, by decide +kernel⟩

/-- A destructor that fails. -/
def brokenGround : Expr := .raise .script (.const (.str "broken"))

theorem lodgeFalls_brokenGround : LodgeFalls brokenGround :=
  ⟨by decide +kernel, by decide +kernel, by decide +kernel, by decide +kernel, by decide +kernel⟩

/-- No run of a destructor of the first class has returned. -/
theorem not_hasReturned_ground {f : MemberFunction} {es : List Event} (howner : f.owner = ⟨0⟩)
    (hdtor : f.flags.isDestructor = true)
    (hnone : (endedRuns [] es).all (fun r =>
      r.failure.isSome || r.activity.destructor?.map (·.owner) ≠ some ⟨0⟩) = true) :
    ¬ HasReturned ⟨1⟩ f es := by
  rintro ⟨r, hr, -, hactivity, hfailure⟩
  have hrun := List.all_eq_true.mp hnone r hr
  simp [hfailure, hactivity, Activity.destructor?, hdtor, howner] at hrun

/-- Where the destructor to which the other one has chained succeeds, it has returned, and
where it fails its failure was caught. -/
theorem destructors_of_lodge :
    (∃ c f, (lodgeWorld quietGround).registry.get? ⟨0⟩ = some c ∧
      c.function? destructorName = some f ∧
      HasReturned ⟨1⟩ f (lodgeRun quietGround).2.journal.reverse) ∧
    ∃ c f, (lodgeWorld brokenGround).registry.get? ⟨0⟩ = some c ∧
      c.function? destructorName = some f ∧
      IsCaught (FailsChained ⟨1⟩ f) (lodgeWorld brokenGround)
        (lodgeRun brokenGround).2.journal.reverse := by
  constructor
  · have hfalls := lodgeFalls_quietGround
    obtain ⟨ob, d, c, f, hob, hd, hk, hc, hf, -, -, hrest⟩ := hfalls.exists_destructor
    have hnone : (lodgeRun quietGround).2.journal.reverse.all (!·.isFailure) = true := by
      decide +kernel
    obtain ⟨hreturned, -⟩ := destructors_of_successful_deletion
      (Session.beginsDeletion_of_history hfalls.begins) hob hd hfalls.run_eq hk hc hf
    refine ⟨c, f, hc, hf, hreturned.resolve_right ?_⟩
    rintro (hcaught | hmarked)
    · exact (hcaught.holds persists_failsChained).not_all hnone
    · rw [hrest] at hmarked
      cases hmarked
  · have hfalls := lodgeFalls_brokenGround
    obtain ⟨ob, d, c, f, hob, hd, hk, hc, hf, howner, hdtor, hrest⟩ := hfalls.exists_destructor
    obtain ⟨hreturned, -⟩ := destructors_of_successful_deletion
      (Session.beginsDeletion_of_history hfalls.begins) hob hd hfalls.run_eq hk hc hf
    refine ⟨c, f, hc, hf, (hreturned.resolve_left ?_).resolve_right ?_⟩
    · exact not_hasReturned_ground howner hdtor (by decide +kernel)
    · rw [hrest]
      exact Bool.false_ne_true

/-- **A destructor can fail and the deletion succeed**: its failure has been caught, and it
counts as begun all the same. -/
theorem exists_failed_destructor :
    ¬ ∀ (opts : EngineOptions) (w : World) (o : ObjectId), Session.BeginsDeletion opts w o →
      ∀ (loads frames : Nat) (s : State),
      deleteObject (enterFrame (runCode loads frames)) o { world := w } = (.value (), s) →
      .deletionBegun o ∉ s.journal.reverse.tail →
      (∀ c ∈ s.world.registry.classes, ∀ f ∈ c.functions.toList,
        f.name = destructorName → f.flags.isDestructor = true) →
      ∀ ob d k c f, w.objects.get? o = some ob → w.registry.get? ob.cls = some d →
        k ∈ d.heritage → w.registry.get? k = some c → c.function? destructorName = some f →
        HasReturned o f s.journal.reverse := by
  intro h
  have hfalls := lodgeFalls_brokenGround
  obtain ⟨ob, d, c, f, hob, hd, hk, hc, hf, howner, hdtor, -⟩ := hfalls.exists_destructor
  have honce : (lodgeRun brokenGround).2.journal.reverse.tail.all
      (!·.beginsDeletion ⟨1⟩) = true := by
    decide +kernel
  have hdeclared : ∀ c ∈ (lodgeRun brokenGround).2.world.registry.classes,
      ∀ f ∈ c.functions.toList, f.name = destructorName → f.flags.isDestructor = true := by
    decide +kernel
  have hreturned := h {} (lodgeWorld brokenGround) ⟨1⟩
    (Session.beginsDeletion_of_history hfalls.begins) 0 2 (lodgeRun brokenGround).2
    hfalls.run_eq (fun hmem => by cases List.all_eq_true.mp honce _ hmem) hdeclared
    ob d ⟨0⟩ c f hob hd hk hc hf
  exact not_hasReturned_ground howner hdtor (by decide +kernel) hreturned

end ObjectDispatch
