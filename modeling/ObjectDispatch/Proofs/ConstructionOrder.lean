import ObjectDispatch.Proofs.Completion
import ObjectDispatch.Proofs.Scopes

/-!
# Superclasses are constructed first

The body of a constructor starts after the superclasses of its class have been marked.  A
class that has been marked is constructed, or its construction has failed where code had
chained to it, or it still goes on.  In the last case the body starts as a part of that
construction.  A construction by itself runs the constructors of the class and of those
that it inherits from, and the class of the body is none of them; so code has chained to a
constructor in between.  This can happen: chaining goes along the heritage of the object,
where a class that inherits from the one whose constructor runs can come later.

So on the way from a class to one that it inherits from there is a first class that is not
constructed, or the constructor at the end of the way is over.

## Main definitions

* `EntersToConstruct`, `EntersOnward` — a frame is entered in the construction of a class,
  or in a constructor that code has chained to.
* `ConstructorOver`, `ConstructionGoesOn` — how far the construction of a class is.
* `Stage` — what has become of a class that was marked.

## Main results

* `Enters.stage` — what has become of the marked classes when the body of a constructor
  starts.
* `superclasses_constructed_first` — **when the body of a constructor starts, the
  constructors of the classes it inherits from are over, but for those that are being
  constructed below a constructor that code has chained to, or have failed there.**
-/

namespace ObjectDispatch

section

variable (r : Registry) (o : ObjectId) (f : Frame) (a : Activity)

/-! ### How far a construction is -/

/-- A run of the body of the constructor of the class has ended. -/
def BodyEnded (k : ClassId) (es : List Event) : Prop :=
  ∃ run ∈ endedRuns [] es, run.start.starts .body k o = true

/-- In one of the frames a constructor runs for the object, that of the class or of
one it inherits from. -/
def RunsIn (frames : List Frame) (k : ClassId) : Prop :=
  ∃ g ∈ frames, g.object = some o ∧ g.Constructs ∧ r.IsA k g.scope

/-- The class is marked for the object, and in what is done to construct it the frame is
entered. -/
def EntersToConstruct (k : ClassId) (w : World) (es : List Event) : Prop :=
  (∃ rest, es = .constructorMarked o k :: rest) ∧ Enters f a (.construct o k) w es

/-- Code chains to a constructor of the object, and in what that does the frame is
entered. -/
def EntersOnward (w : World) (es : List Event) : Prop :=
  ∃ g rest, es = .chained :: rest ∧ Enters f a (.constructor o g) (w.after .chained) rest

/-- The body of the constructor has run, and in none of the frames does the constructor
run. -/
structure ConstructorOver (past : List Event) (frames : List Frame) (k : ClassId) : Prop where
  ended : BodyEnded o k past
  left : ∀ g ∈ frames, g.kind = .ctor → g.object = some o → g.scope ≠ k

/-- The frame is entered while the class is constructed, in a constructor that code has
chained to since the class was marked.  No run of the body of its own constructor has
ended, and in one of the frames a constructor of the class or of one that it inherits from
runs. -/
structure ConstructionGoesOn (w : World) (past : List Event) (k : ClassId) : Prop where
  onward : EndsWith (fun v es => EntersToConstruct o f a k v es ∧
    EndsWith (EntersOnward o f a) v es) w past
  unfinished : ¬ BodyEnded o k past
  runs : RunsIn r o (w.replay past).stack.frames k

/-- What has become of the class `k`, which was marked, when the frame is entered to run
the body of the constructor of `j`: that is a part of the construction of `k`, or the
construction is over. -/
inductive Stage (j k : ClassId) (w : World) (es : List Event) : Prop
  | within (h : EndsWith (EntersToConstruct o f a k) w es)
  | completed (hne : k ≠ j) (h : Completed r o k w es)
  | failed (hne : k ≠ j) (h : FailsOnward o (ConstructionFails o k) w es)

end

section

variable {r : Registry} {o : ObjectId} {f g : Frame} {a : Activity} {j k : ClassId}
  {p : ConstructorPart} {w : World} {t t' next : Task} {before evs es fs : List Event}

theorem BodyEnded.countP_pos (h : BodyEnded o k es) : 0 < es.countP (·.starts .body k o) := by
  obtain ⟨run, hrun, hstart⟩ := h
  have hmem : run.start ∈ es := (start_mem_of_mem_endedRuns hrun).resolve_right (by simp)
  exact List.countP_pos_iff.mpr ⟨run.start, hmem, hstart⟩

theorem Enters.bodyEnded_append (h : Enters f a t w fs) (hended : BodyEnded o k (es ++ fs)) :
    BodyEnded o k es ∨ BodyEnded o k fs := by
  obtain ⟨run, hrun, hstart⟩ := hended
  obtain ⟨running', hruns⟩ := endedRuns_append [] es fs
  rw [hruns, h.endedRuns_eq, List.mem_append] at hrun
  exact hrun.imp (fun hrun => ⟨run, hrun, hstart⟩) fun hrun => ⟨run, hrun, hstart⟩

theorem EntersOnward.chained_mem (h : EntersOnward o f a w es) : .chained ∈ es := by
  obtain ⟨g, rest, rfl, -⟩ := h
  exact List.mem_cons_self

theorem ConstructionGoesOn.chained_mem (h : ConstructionGoesOn r o f a w es k) :
    .chained ∈ es :=
  h.onward.mem fun hlast => hlast.2.mem EntersOnward.chained_mem

/-! ### Starts and marks -/

/-- The class is marked before a part of its constructor starts. -/
theorem Enters.mem_of_starts (h : Enters f a t w es) (hw : w.Sound)
    (hstart : (Event.entered f a).starts p k o = true) (ht : t.pending p k o = 0) :
    .constructorMarked o k ∈ es := by
  have hle := h.course.starts_le_marks (p := p) (k := k) (o := o) hw
  have hlast : [Event.entered f a].countP (·.starts p k o) = 1 := by simp [hstart]
  have hnone : [Event.entered f a].countP (·.marks k o) = 0 := rfl
  rw [List.countP_append, List.countP_append, hlast, hnone, ht] at hle
  by_contra hmark
  rw [countP_marks_eq_zero hmark] at hle
  omega

theorem Enters.countP_starts_of_settled (h : Enters f a t w es) (hw : w.Sound)
    (hsettled : w.Settled k o) (ht : t.pending p k o = 0) :
    (es ++ [Event.entered f a]).countP (·.starts p k o) = 0 :=
  h.course.countP_starts_of_settled hw hsettled ht

/-- Where the class is settled, only what was to come starts. -/
theorem Enters.not_settled (h : Enters f a t w es) (hw : w.Sound)
    (hstart : (Event.entered f a).starts p k o = true) (ht : t.pending p k o = 0) :
    ¬ w.Settled k o := by
  intro hsettled
  have hnone := h.countP_starts_of_settled hw hsettled ht
  rw [List.countP_eq_zero] at hnone
  exact hnone _ (by simp) hstart

/-- A class is settled where a part of its constructor comes to be pending. -/
theorem Task.Begins.settled_or_pending (h : t.Begins w evs t') (hw : w.Sound)
    (ht : w.Settled j o ∨ t.pending p j o = 0) :
    (w.replay evs).Settled j o ∨ t'.pending p j o = 0 := by
  rcases ht with hsettled | hpending
  · exact Or.inl (hsettled.replay evs)
  · by_cases hmark : .constructorMarked o j ∈ evs
    · obtain ⟨rfl, ob, _, hob, -⟩ := h.of_mem_constructorMarked hmark
      exact Or.inl (World.settled_of_marked hw hob)
    · have hle := h.pending_le (p := p) (k := j) (o := o) hw
      rw [hpending, countP_marks_eq_zero hmark] at hle
      exact Or.inr (Nat.le_zero.mp hle)

/-! ### What has become of a class that was marked -/

/-- What happens from a mark on happens in the construction of the class. -/
theorem Enters.toConstruct_of_mark (h : t.Begins w evs t') (h' : Enters f a t' (w.replay evs) es)
    (hmark : .constructorMarked o k ∈ evs) : EntersToConstruct o f a k w (evs ++ es) := by
  obtain ⟨rfl, ob, c, hob, hk, hc, ⟨rfl, -, -⟩ | ⟨m, rfl, rfl, hf, -⟩⟩ :=
    h.of_mem_constructorMarked hmark
  · exact ⟨⟨es, rfl⟩, .begins h h'⟩
  · have hown : (Task.construct o m.owner).Begins w [] (.constructor o m) :=
      .constructOwn hob hk hc hf
    refine ⟨⟨es, rfl⟩, ?_⟩
    rw [← List.nil_append (_ ++ es)]
    exact .begins hown (.begins h h')

theorem Stage.part (before : List Event) (h : Stage r o f a j k (w.replay before) es)
    (hpart : EndsWithin es (before ++ es)) : Stage r o f a j k w (before ++ es) := by
  cases h with
  | within h => exact .within (h.of_append before)
  | completed hne h => exact .completed hne (h.part before [] (List.append_nil _).symm hpart)
  | failed hne h =>
    have hfailed := persists_failsOnward before [] h
    rw [List.append_nil] at hfailed
    exact .failed hne hfailed

/-- **A task that has succeeded has constructed the classes that it has marked**, or code
has chained to what has failed.  The body of a constructor is entered only after that, so
the object is not gone. -/
theorem Enters.stage_of_done (h : Course t w es (.value ())) (h' : Enters f a next (w.replay es) fs)
    (hw : w.Sound) (hstart : (Event.entered f a).starts .body j o = true)
    (hnext : w.Settled j o ∨ next.pending .body j o = 0)
    (hgrows : (w.replay es).registry.GrowsTo r) (hmark : .constructorMarked o k ∈ es) :
    Stage r o f a j k w (es ++ fs) := by
  -- the class of the body can only have been settled before
  have hbefore (hsettled : (w.replay es).Settled j o) : w.Settled j o :=
    hnext.resolve_right fun hpending => h'.not_settled (h.sound hw) hstart hpending hsettled
  have hne : k ≠ j := by
    rintro rfl
    have hnone := (hbefore (h.settled_of_mem hw hmark)).countP_marks (h.marksAnew hw)
    exact List.countP_eq_zero.mp hnone _ hmark (Event.marks_iff.mpr rfl)
  rcases h.completed_or_failing nofun hw hgrows hmark with hcompleted | hfailing
  · exact .completed hne (Completed.part [] fs hcompleted rfl (endsWithin_left es fs))
  · rcases hfailing.handled_or_gone with hhandled | ⟨hnew, ho, hgone⟩
    · exact .failed hne (persists_failsOnward [] fs (hhandled.holds persists_failsOnward))
    · have hsettled : (w.replay es).Settled j o :=
        ⟨ho, fun ob hob => by rw [hgone] at hob; cases hob⟩
      exact absurd (hbefore hsettled).1 (Nat.not_le_of_lt hnew)

/-- **What has become of the marked classes when the body of a constructor starts.**  The
induction is on how it comes to be entered: what is going on at that moment has begun with
the mark of its class, and what has been done before is over. -/
theorem Enters.stage (h : Enters f a t w es) (hw : w.Sound)
    (hstart : (Event.entered f a).starts .body j o = true)
    (ht : w.Settled j o ∨ t.pending .body j o = 0)
    (hgrows : (w.replay es).registry.GrowsTo r) (hmark : .constructorMarked o k ∈ es) :
    Stage r o f a j k w es := by
  induction h with
  | entry => cases hmark
  | @inside g b w es hroom h ih =>
    have hinside := (List.mem_cons.mp hmark).resolve_left nofun
    have hstage := ih (hw.after hroom) (Or.inr rfl) hgrows hinside
    exact hstage.part [.entered g b] h.endsWithin_entered
  | @begins t t' w evs es h h' ih =>
    rcases List.mem_append.mp hmark with hmark | hmark
    · exact .within ⟨[], evs ++ es, rfl, Enters.toConstruct_of_mark h h' hmark⟩
    · rw [World.replay_append] at hgrows
      have hstage := ih (hw.replay h.admitsAll) (h.settled_or_pending hw ht) hgrows hmark
      exact hstage.part evs ((balanced_of_isQuiet h.isQuiet).endsWithin_right es)
  | @building o' t w es h ih =>
    have hbegun : Balanced [.constructionBegun o'] := .quiet trivial .nil
    have hinside := (List.mem_cons.mp hmark).resolve_left nofun
    have hstage := ih (hw.after trivial) (ht.imp_left (·.after _)) hgrows hinside
    exact hstage.part [.constructionBegun o'] (hbegun.endsWithin_right es)
  | first _ ih => exact ih hw (ht.imp_right (Nat.add_eq_zero_iff.mp · |>.1)) hgrows hmark
  | @second t next w es fs h h' ih =>
    have hnext := ht.imp_right fun hpending => (Nat.add_eq_zero_iff.mp hpending).2
    rw [World.replay_append] at hgrows
    rcases List.mem_append.mp hmark with hmark | hmark
    · have hearlier := (World.leadsTo_replay (w.replay es) fs).registry.trans hgrows
      exact Enters.stage_of_done h h' hw hstart hnext hearlier hmark
    · have hstage := ih (h.sound hw) (hnext.imp_left (·.replay es)) hgrows hmark
      exact hstage.part es ((h.balanced nofun).endsWithin_right fs)
  | guarded _ ih => exact ih hw ht hgrows hmark
  | task htask _ ih => exact ih hw (Or.inr (htask.pending_eq_zero hw)) hgrows hmark
  | @later w es fs h h' ih =>
    rw [World.replay_append] at hgrows
    rcases List.mem_append.mp hmark with hmark | hmark
    · have hearlier := (World.leadsTo_replay (w.replay es) fs).registry.trans hgrows
      exact Enters.stage_of_done h h' hw hstart (Or.inr rfl) hearlier hmark
    · have hstage := ih (h.sound hw) (Or.inr rfl) hgrows hmark
      exact hstage.part es ((h.balanced nofun).endsWithin_right fs)

/-! ### In the construction of a class -/

theorem Enters.not_done : ¬ Enters f a .done w es := by
  intro h
  cases h with
  | begins h => cases h

theorem Enters.cases_of_seq (h : Enters f a (.seq t next) w es) :
    Enters f a t w es ∨
      ∃ fs gs, es = fs ++ gs ∧ Course t w fs (.value ()) ∧ Enters f a next (w.replay fs) gs := by
  cases h with
  | begins h => cases h
  | first h => exact Or.inl h
  | second h h' => exact Or.inr ⟨_, _, rfl, h, h'⟩

/-- In a sequence where the first task does not start a part of the constructor, that part
has not started, or the second task is going on. -/
theorem Enters.waits_or_follows (h : Enters f a (.seq t next) w es) (hw : w.Sound)
    (hsettled : w.Settled k o) (ht : t.pending p k o = 0) :
    (es ++ [Event.entered f a]).countP (·.starts p k o) = 0 ∨
      ∃ fs gs, es = fs ++ gs ∧ fs.countP (·.starts p k o) = 0 ∧ Course t w fs (.value ()) ∧
        Enters f a next (w.replay fs) gs := by
  rcases h.cases_of_seq with h | ⟨fs, gs, rfl, h, h'⟩
  · exact Or.inl (h.countP_starts_of_settled hw hsettled ht)
  · exact Or.inr ⟨fs, gs, rfl, h.countP_starts_of_settled hw hsettled ht, h, h'⟩

/-- **How far the construction of a class is when a frame is entered in it**: the body of
its constructor has not started, or the superclasses have been marked and what is going on
is the run of the body. -/
theorem EntersToConstruct.waits_or_runs (h : EntersToConstruct o f a k w es) (hw : w.Sound) :
    (es ++ [Event.entered f a]).countP (·.starts .body k o) = 0 ∨
      ∃ c m fs gs, es = fs ++ gs ∧ w.registry.get? k = some c ∧
        fs.countP (·.starts .body k o) = 0 ∧ w.AdmitsAll fs ∧ (w.replay fs).Settled k o ∧
        (∀ s ∈ c.supers, HasMark o s w fs) ∧
        Enters f a (.frame (m.callFrame (some o) constructorName) (.body m)) (w.replay fs) gs := by
  obtain ⟨-, h⟩ := h
  have hsound : (w.after (.constructorMarked o k)).Sound := hw.after trivial
  have hmark (fs : List Event) (hfs : fs.countP (·.starts .body k o) = 0) :
      (.constructorMarked o k :: fs).countP (·.starts .body k o) = 0 := by
    rw [List.countP_cons_of_neg (by simp [Event.starts]), hfs]
  cases h with
  | begins h h' =>
    cases h with
    | constructed => exact h'.not_done.elim
    | constructSupers hob =>
      have hsettled := World.settled_of_marked (k := k) hw hob
      exact Or.inl (hmark _ (h'.countP_starts_of_settled hsound hsettled
        (pending_all_construct o _)))
    | @constructOwn _ _ _ _ m _ _ hc hf =>
      obtain rfl := (hw.built.function?_spec hc hf).1
      cases h' with
      | begins h h' =>
        cases h with
        | constructorBegun => exact h'.not_done.elim
        | @constructor _ _ _ c hob hk hc =>
          have hsettled := World.settled_of_marked (k := m.owner) hw hob
          rcases h'.waits_or_follows hsound hsettled (m.pending_body_initialization o) with
            hnone | ⟨es₁, es', rfl, hnone₁, hinit, h'⟩
          · exact Or.inl (hmark _ hnone)
          have hsound₁ := hinit.sound hsound
          have hsupers := pending_all_construct (p := .body) (k := m.owner) (o := o) o c.supers
          rcases h'.waits_or_follows hsound₁ (hsettled.replay es₁) hsupers with
            hnone₂ | ⟨es₂, gs, rfl, hnone₂, hsupers, hbody⟩
          · have hnone := hmark (es₁ ++ (es' ++ [Event.entered f a]))
              (by rw [List.countP_append, hnone₁, hnone₂])
            rw [← List.append_assoc es₁] at hnone
            exact Or.inl hnone
          · refine Or.inr ⟨c, m, .constructorMarked o m.owner :: (es₁ ++ es₂), gs, by simp, hc,
              hmark _ (by rw [List.countP_append, hnone₁, hnone₂]),
              ⟨trivial, World.admitsAll_append.mpr ⟨hinit.admitsAll, hsupers.admitsAll⟩⟩,
              hsettled.replay (es₁ ++ es₂), fun s hs => ?_, ?_⟩
            · have hmarked := hsupers.hasMark_of_all_construct hsound₁ s hs
              have hpart := hmarked.part (.constructorMarked o m.owner :: es₁) []
              rwa [List.append_nil] at hpart
            · rw [World.replay_cons, World.replay_append]
              exact hbody

/-- The superclasses are marked before the body of the constructor starts. -/
theorem EntersToConstruct.hasMark_supers (h : EntersToConstruct o f a k w es) (hw : w.Sound)
    (hstart : (Event.entered f a).starts .body k o = true) (hgrows : w.registry.GrowsTo r) :
    ∀ s ∈ r.supersOf k, HasMark o s w es := by
  rcases h.waits_or_runs hw with hnone | ⟨c, m, fs, gs, rfl, hc, -, -, -, hmarked, -⟩
  · exact absurd hstart (List.countP_eq_zero.mp hnone _ (by simp))
  · intro s hs
    rw [Registry.supersOf_eq (hgrows.get? hc)] at hs
    exact (hmarked s hs).part [] gs

theorem EntersToConstruct.not_bodyEnded (h : EntersToConstruct o f a k w es) (hw : w.Sound) :
    ¬ BodyEnded o k es := by
  intro hended
  rcases h.waits_or_runs hw with hnone | ⟨_, m, fs, gs, rfl, -, hnone, hfs, hsettled, -, hbody⟩
  · rw [List.countP_append] at hnone
    have hpos := hended.countP_pos
    omega
  · rcases hbody.bodyEnded_append hended with hended | hended
    · have hpos := hended.countP_pos
      omega
    · -- the body is running, and in its frame it does not start again
      cases hbody with
      | begins hbegins => cases hbegins
      | entry =>
        obtain ⟨run, hrun, -⟩ := hended
        cases hrun
      | @inside _ _ _ gs hroom hcode =>
        obtain ⟨run, hrun, hstart⟩ := hended
        have hrun : run ∈ endedRuns [(m.callFrame (some o) constructorName, .body m)] gs := hrun
        rw [hcode.endedRuns_eq] at hrun
        have hpos := BodyEnded.countP_pos ⟨run, hrun, hstart⟩
        have hnone := hcode.countP_starts_of_settled (p := .body)
          ((hw.replay hfs).after (e := .entered _ _) hroom) (hsettled.after _) rfl
        rw [List.countP_append] at hnone
        omega

/-- As long as a class is being constructed, no run of the body of its constructor has
ended: no body runs before its class is marked, and it is marked once. -/
theorem Enters.not_bodyEnded (h : Enters f a t w es) (hw : w.Sound)
    (ht : t.pending .body k o = 0) (hlast : EndsWith (EntersToConstruct o f a k) w es) :
    ¬ BodyEnded o k es := by
  obtain ⟨start, last, rfl, hlast⟩ := hlast
  intro hended
  rcases hlast.2.bodyEnded_append hended with ⟨run, hrun, hstart⟩ | hended
  · have hmem : run.start ∈ start := (start_mem_of_mem_endedRuns hrun).resolve_right (by simp)
    obtain ⟨before, after, rfl⟩ := List.append_of_mem hmem
    have hsplit : before ++ run.start :: after ++ last ++ [Event.entered f a] =
        before ++ .entered run.frame run.activity :: (after ++ last ++ [.entered f a]) := by
      simp [EndedRun.start]
    have hmark := (h.course.enters hsplit).mem_of_starts hw hstart ht
    obtain ⟨⟨rest, rfl⟩, -⟩ := hlast
    have hle := h.course.marks_le_one (k := k) (o := o) hw
    have hpos : 0 < before.countP (·.marks k o) :=
      List.countP_pos_iff.mpr ⟨_, hmark, Event.marks_iff.mpr rfl⟩
    have hpos' : 0 < (Event.constructorMarked o k :: rest).countP (·.marks k o) :=
      List.countP_pos_iff.mpr ⟨_, List.mem_cons_self, Event.marks_iff.mpr rfl⟩
    rw [List.countP_append, List.countP_append, List.countP_append] at hle
    omega
  · have hadmitted := (World.admitsAll_append.mp h.course.admitsAll).1
    exact hlast.not_bodyEnded (hw.replay (World.admitsAll_append.mp hadmitted).1) hended

/-! ### Frames -/

/-- The frame is one that the task enters, for a constructor whose class has been marked. -/
def Task.Holds (g : Frame) : Task → Prop
  | .frame f _ => f = g
  | .building _ t | .guarded t _ => t.Holds g
  | .seq t next => t.Holds g ∨ next.Holds g
  | .destructOnward _ m => m.flags.isConstructor = true
  | _ => False

theorem Task.not_holds_all {ts : List Task} (h : ∀ t ∈ ts, ¬ t.Holds g) : ¬ (Task.all ts).Holds g :=
  Task.all_of_forall (P := fun t => ¬ t.Holds g) id (fun h h' => not_or.mpr ⟨h, h'⟩) h

theorem Task.not_holds_call {m : MemberFunction} (hctor : m.flags.isConstructor = false)
    (hg : g.kind = .ctor) (object : Option ObjectId) (n : String) :
    ¬ (Task.frame (m.callFrame object n) (.body m)).Holds g := by
  rintro rfl
  exact m.frameKind_ne_ctor hctor object hg

theorem World.Available.not_holds (ht : w.Available t) (hw : w.Sound) (hg : g.kind = .ctor) :
    ¬ t.Holds g := by
  cases ht with
  | method _ hc hf _ | procedure hc hf _ _ =>
    exact Task.not_holds_call (hw.built.resolveFunction?_spec hc hf).1 hg _ _
  | onward _ _ hctor _ => exact Task.not_holds_call hctor hg _ _
  | scope =>
    rintro rfl
    cases hg
  | _ => exact id

/-- The frames of a constructor are entered after its class has been marked. -/
theorem Task.Begins.holds (h : t.Begins w evs t') (hw : w.Sound) (hg : g.kind = .ctor)
    (hobject : g.object = some o) (ht' : t'.Holds g) :
    t.Holds g ∨ .constructorMarked o g.scope ∈ evs := by
  cases h with
  | create | constructed | constructOwn | constructorBegun | destructNone | destructed
  | destructorBegun | remove => simp [Task.Holds, Task.all] at ht'
  | constructSupers => exact (Task.not_holds_all (by simp [Task.Holds]) ht').elim
  | @constructor o' m =>
    rcases ht' with hinit | hsupers | rfl
    · unfold MemberFunction.initialization at hinit
      split at hinit
      · exact hinit.elim
      · obtain rfl : m.initializerFrame o' = g := hinit
        cases hobject
        exact Or.inr List.mem_cons_self
    · exact (Task.not_holds_all (by simp [Task.Holds]) hsupers).elim
    · cases hobject
      exact Or.inr List.mem_cons_self
  | delete =>
    rcases ht' with hdestruct | hremove
    · exact (Task.not_holds_all (by simp [Task.Holds]) hdestruct).elim
    · exact hremove.elim
  | destruct _ _ hc hf =>
    exact (Task.not_holds_call (hw.built.isConstructor_eq_false hc hf (by decide)) hg _ _ ht').elim
  | destructOnward =>
    refine Or.inl ?_
    by_contra hctor
    exact Task.not_holds_call (by simpa [Holds] using hctor) hg _ _ ht'
  | @chain t' honward =>
    cases t' with
    | destructOnward o' m =>
      have hctor : m.flags.isConstructor = false := honward
      rw [show m.flags.isConstructor = true from ht'] at hctor
      cases hctor
    | «constructor» => exact ht'.elim
    | _ => exact honward.elim
  | @assign o' v =>
    unfold Variable.hooking at ht'
    split at ht'
    · exact ht'.elim
    · rcases ht' with rfl | hdone
      · cases hg
      · exact hdone.elim

/-- **A frame of a constructor is there while its class is being constructed**, unless it
was there before. -/
theorem Enters.within_of_frame (h : Enters f a t w es) (hw : w.Sound)
    (hmem : g ∈ (w.replay es).stack.frames) (hg : g.kind = .ctor) (hobject : g.object = some o) :
    g ∈ w.stack.frames ∨ t.Holds g ∨ EndsWith (EntersToConstruct o f a g.scope) w es := by
  induction h with
  | entry => exact Or.inl hmem
  | @inside g' b w es hroom h ih =>
    rcases ih (hw.after hroom) hmem with hbelow | hcode | hwithin
    · exact (List.mem_cons.mp hbelow).symm.imp_right fun heq => Or.inl heq.symm
    · exact hcode.elim
    · exact Or.inr (Or.inr (hwithin.of_append [.entered g' b]))
  | @begins t t' w evs es h h' ih =>
    rw [World.replay_append] at hmem
    rcases ih (hw.replay h.admitsAll) hmem with hbelow | hholds | hwithin
    · rw [h.keeps.stack] at hbelow
      exact Or.inl hbelow
    · refine Or.inr ((h.holds hw hg hobject hholds).imp_right fun hmark => ?_)
      exact ⟨[], evs ++ es, rfl, Enters.toConstruct_of_mark h h' hmark⟩
    · exact Or.inr (Or.inr (hwithin.of_append evs))
  | @building o' t w es h ih =>
    exact (ih (hw.after trivial) hmem).imp_right
      (·.imp_right (·.of_append [.constructionBegun o']))
  | first _ ih => exact (ih hw hmem).imp_right (·.imp_left Or.inl)
  | @second t next w es fs h h' ih =>
    rw [World.replay_append] at hmem
    have hsecond := ih (h.sound hw) hmem
    rw [(h.keeps nofun).stack] at hsecond
    exact hsecond.imp_right (·.imp Or.inr (·.of_append es))
  | guarded _ ih => exact ih hw hmem
  | task htask _ ih =>
    exact (ih hw hmem).imp_right (·.imp_left fun hholds => htask.not_holds hw hg hholds)
  | @later w es fs h h' ih =>
    rw [World.replay_append] at hmem
    have hsecond := ih (h.sound hw) hmem
    rw [(h.keeps nofun).stack] at hsecond
    exact hsecond.imp_right (·.imp_right (·.of_append es))

/-- The task is part of the construction of the class: by itself it runs constructors of
the object, that of the class and those of the classes that it inherits from. -/
def Task.Builds (r : Registry) (o : ObjectId) (k : ClassId) : Task → Prop
  | .done => True
  | .frame g b => g.object = some o ∧ g.Constructs ∧ r.IsA k g.scope ∧
      ∀ p i, b.part? = some (p, i) → i = g.scope
  | .seq t next => t.Builds r o k ∧ next.Builds r o k
  | .construct o' i => o' = o ∧ r.IsA k i
  | .constructor o' m => o' = o ∧ r.IsA k m.owner
  | _ => False

/-- What a construction goes on with belongs to it. -/
theorem Task.Begins.builds (h : t.Begins w evs t') (hw : w.Sound) {opts : EngineOptions}
    (hr : r.Built opts) (hgrows : w.registry.GrowsTo r) (ht : t.Builds r o k) :
    t'.Builds r o k := by
  have hsupers {i : ClassId} {c : Class} (hc : w.registry.get? i = some c) (hi : r.IsA k i) :
      (Task.all (c.supers.map (.construct o))).Builds r o k := by
    refine Task.all_of_forall (P := (·.Builds r o k)) trivial And.intro fun t ht => ?_
    obtain ⟨s, hs, rfl⟩ := List.mem_map.mp ht
    have hc := hgrows.get? hc
    have his : r.IsA i s := (hr.isA_iff (by rw [hc]; rfl)).mpr
      (.single (Registry.inherits_of_mem_supers hc hs))
    exact ⟨rfl, hr.isA_trans hi his⟩
  cases h with
  | constructed | constructorBegun => trivial
  | constructOwn _ _ hc hf =>
    rw [← (hw.built.function?_spec hc hf).1] at ht
    exact ht
  | constructSupers _ _ hc =>
    obtain ⟨rfl, hi⟩ := ht
    exact hsupers hc hi
  | @constructor o' m _ _ _ _ hc =>
    obtain ⟨rfl, hi⟩ := ht
    refine ⟨?_, hsupers hc hi, rfl, Or.inl rfl, hi, fun p i hpart =>
      (Activity.of_part?_body hpart).2⟩
    unfold MemberFunction.initialization
    cases m.initializer with
    | none => trivial
    | some code =>
      refine ⟨rfl, Or.inr rfl, hi, fun p i hpart => ?_⟩
      cases hpart
      rfl
  | create | delete | destructNone | destructed | destruct | destructorBegun | destructOnward
  | chain | remove | assign => exact ht.elim

/-- In one of the frames a constructor of the class runs, or of one that it inherits from,
where the constructor of another class comes to run in its construction. -/
theorem Enters.runsIn (h : Enters f a t w es) (hw : w.Sound) {opts : EngineOptions}
    (hr : r.Built opts) (hgrows : (w.replay es).registry.GrowsTo r) (ht : t.Builds r o k)
    (ha : a.part? = some (p, j)) (hj : ¬ r.IsA k j) :
    RunsIn r o (w.replay es).stack.frames k := by
  induction h with
  | entry =>
    obtain ⟨-, -, hscope, hpart⟩ := ht
    rw [← hpart p j ha] at hscope
    exact absurd hscope hj
  | @inside g b w es _ h =>
    exact ⟨g, h.suffix_frames.subset List.mem_cons_self, ht.1, ht.2.1, ht.2.2.1⟩
  | @begins t t' w evs es h _ ih =>
    rw [World.replay_append] at hgrows ⊢
    have hearlier := ((w.leadsTo_replay evs).trans (World.leadsTo_replay _ es)).registry
    exact ih (hw.replay h.admitsAll) hgrows (h.builds hw hr (hearlier.trans hgrows) ht)
  | first _ ih => exact ih hw hgrows ht.1
  | second h _ ih =>
    rw [World.replay_append] at hgrows ⊢
    exact ih (h.sound hw) hgrows ht.2
  | building | guarded | task | later => exact ht.elim

/-- **A constructor runs for the task by itself, or code has chained to one** in which it
runs.  A class that is constructed by itself comes no later than what it inherits from. -/
theorem Enters.onward_or_involves (h : Enters f a t w es) (hw : w.Sound)
    (ho : o.number ≤ w.objects.created) (hobject : f.object = some o)
    (ha : a.part? = some (p, j)) :
    EndsWith (EntersOnward o f a) w es ∨ t.Involves (fun i => j.index ≤ i.index) o := by
  induction h with
  | entry => exact Or.inr ⟨hobject, p, j, ha, Nat.le_refl _⟩
  | @inside g b w es hroom _ ih =>
    rcases ih (hw.after hroom) ho with honward | hcode
    · exact Or.inl (honward.of_append [.entered g b])
    · exact hcode.elim
  | @begins t t' w evs es h h' ih =>
    have ho' := Nat.le_trans ho (w.leadsTo_replay evs).created
    rcases ih (hw.replay h.admitsAll) ho' with honward | hinvolves
    · exact Or.inl (honward.of_append evs)
    · have hlater {i : ClassId} {c : Class} (hc : w.registry.get? i = some c) (s : ClassId)
          (hs : s ∈ c.supers) (hle : j.index ≤ s.index) : j.index ≤ i.index :=
        Nat.le_trans hle
          (hw.built.index_lt_of_inherits (Registry.inherits_of_mem_supers hc hs)).le
      rcases h.involves hw hlater hinvolves with ht | ⟨_, _, -, rfl⟩ | ⟨m, rfl, rfl, rfl⟩
      · exact Or.inr ht
      · exact absurd ho (Nat.not_succ_le_self _)
      · exact Or.inl ⟨[], .chained :: es, rfl, m, es, rfl, h'⟩
  | @building o' t w es _ ih =>
    exact (ih (hw.after trivial) ho).imp_left (·.of_append [.constructionBegun o'])
  | first _ ih => exact (ih hw ho).imp_right Or.inl
  | @second t next w es fs h _ ih =>
    exact (ih (h.sound hw) (Nat.le_trans ho (w.leadsTo_replay es).created)).imp
      (·.of_append es) Or.inr
  | guarded _ ih => exact ih hw ho
  | task htask _ ih =>
    exact (ih hw ho).imp_right fun hinvolves => (htask.not_involves hw hinvolves).elim
  | @later w es fs h _ ih =>
    exact (ih (h.sound hw) (Nat.le_trans ho (w.leadsTo_replay es).created)).imp_left
      (·.of_append es)

/-! ### The order -/

/-- **Where the body of a constructor starts in the construction of a class that its own
class inherits from, code has chained in between.** -/
theorem Enters.constructionGoesOn (h : Enters f a t w es) (hw : w.Sound)
    (ht : t.pending .body k o = 0) {opts : EngineOptions} (hr : r.Built opts)
    (hgrows : (w.replay es).registry.GrowsTo r) (hobject : f.object = some o)
    (ha : a.part? = some (p, j)) (hk : r.IsA k k) (hlt : k.index < j.index)
    (hlast : EndsWith (EntersToConstruct o f a k) w es) :
    ConstructionGoesOn r o f a w es k := by
  have hunfinished := h.not_bodyEnded hw ht hlast
  have hanew := (World.each_append.mp (h.course.marksAnew hw)).1
  have hadmitted := (World.admitsAll_append.mp h.course.admitsAll).1
  obtain ⟨start, last, rfl, hlast⟩ := hlast
  have hsound := hw.replay (World.admitsAll_append.mp hadmitted).1
  rw [World.replay_append] at hgrows
  refine ⟨⟨start, last, rfl, hlast, ?_⟩, hunfinished, ?_⟩
  · -- the object was there when the class was marked
    obtain ⟨⟨rest, rfl⟩, hconstruct⟩ := hlast
    obtain ⟨ob, hob, -⟩ := (World.each_append.mp hanew).2.1 o k rfl
    refine (hconstruct.onward_or_involves hsound (hsound.allocated o ob hob) hobject
      ha).resolve_right fun hinvolves => ?_
    exact absurd hinvolves.2 (Nat.not_le_of_lt hlt)
  · have hnot : ¬ r.IsA k j := by
      intro hkj
      have hle := hr.index_le_of_reflTransGen ((hr.isA_iff hk.isSome).mp hkj)
      omega
    rw [World.replay_append]
    exact hlast.2.runsIn hsound hr hgrows ⟨rfl, hk⟩ ha hnot

/-- The superclasses have been marked when the body of a constructor starts: its class has
been marked, and it is in the construction of that class that the body starts. -/
theorem Enters.hasMark_supers (h : Enters f a t w es) (hw : w.Sound)
    (hstart : (Event.entered f a).starts .body j o = true) (ht : t.pending .body j o = 0)
    (hgrows : (w.replay es).registry.GrowsTo r) : ∀ s ∈ r.supersOf j, HasMark o s w es := by
  have hadmitted := (World.admitsAll_append.mp h.course.admitsAll).1
  cases h.stage hw hstart (Or.inr ht) hgrows (h.mem_of_starts hw hstart ht) with
  | within hlast =>
    obtain ⟨start, last, rfl, hlast⟩ := hlast
    have hsound := hw.replay (World.admitsAll_append.mp hadmitted).1
    rw [World.replay_append] at hgrows
    have hearlier := (World.leadsTo_replay (w.replay start) last).registry.trans hgrows
    intro s hs
    have hmark := (hlast.hasMark_supers hsound hstart hearlier s hs).part start []
    rwa [List.append_nil] at hmark
  | completed hne | failed hne => exact absurd rfl hne

/-- **What has become of the classes that the class of a body inherits from**: each has
been constructed, but for those to which the way leads past a class that is being
constructed or whose construction has failed. -/
theorem Enters.completed_or_stops (h : Enters f a t w es) (hw : w.Sound)
    (hstart : (Event.entered f a).starts .body j o = true) (ht : t.pending .body j o = 0)
    (hdead : w.objects.get? o = none) {opts : EngineOptions} (hr : r.Built opts)
    (hgrows : (w.replay es).registry.GrowsTo r) (hjk : r.IsA j k) (hkj : k ≠ j) :
    (Completed r o k w es ∧ ¬ EndsWith (EntersToConstruct o f a k) w es) ∨
      ∃ d, r.IsA j d ∧ d.index < j.index ∧ r.IsA d k ∧
        (EndsWith (EntersToConstruct o f a d) w es ∨
          FailsOnward o (ConstructionFails o d) w es) := by
  have hmarked {d : ClassId} (hd : HasMark o d w es) :
      (Completed r o d w es ∧ ¬ EndsWith (EntersToConstruct o f a d) w es) ∨
        (EndsWith (EntersToConstruct o f a d) w es ∨
          FailsOnward o (ConstructionFails o d) w es) := by
    have hmark : .constructorMarked o d ∈ es := by
      refine hd.resolve_left ?_
      rintro ⟨ob, hob, -⟩
      rw [hdead] at hob
      cases hob
    by_cases hwithin : EndsWith (EntersToConstruct o f a d) w es
    · exact Or.inr (Or.inl hwithin)
    · cases h.stage hw hstart (Or.inr ht) hgrows hmark with
      | within hlast => exact absurd hlast hwithin
      | completed _ hcompleted => exact Or.inl ⟨hcompleted, hwithin⟩
      | failed _ hfailed => exact Or.inr (Or.inr hfailed)
  rcases ((hr.isA_iff hjk.isSome).mp hjk).cases_head with rfl | ⟨s, hjs, hsk⟩
  · exact absurd rfl hkj
  have hs : r.IsA s k := (hr.isA_iff (hr.isSome_get?_of_inherits hjs)).mpr hsk
  have hjs' : r.IsA j s := (hr.isA_iff hjk.isSome).mpr (.single hjs)
  refine (hr.holds_or_stops hs (hmarked (h.hasMark_supers hw hstart ht hgrows s hjs))
    fun d s hs hd => hmarked (hd.1.supers s hs)).imp_right ?_
  rintro ⟨d, hsd, hdk, hstops⟩
  have hlt : d.index < j.index := Nat.lt_of_le_of_lt
    (hr.index_le_of_reflTransGen ((hr.isA_iff hsd.isSome).mp hsd)) (hr.index_lt_of_inherits hjs)
  exact ⟨d, hr.isA_trans hjs' hsd, hlt, hdk, hstops⟩

end

/-! ### Sessions -/

/-- **When the body of a constructor starts, the constructors of the classes it inherits
from are over**, unless code has chained.  On the way to one that is not over there is then
a class in whose construction the body starts, in a constructor that code has chained to
since, or a class whose construction has failed with what code had chained to. -/
theorem superclasses_constructed_first (loads : Nat) (opts : EngineOptions) (es : List Expr)
    {before after : List Event} {f : Frame} {a : Activity}
    (hes : Session.history loads (World.initial opts) es = before ++ .entered f a :: after)
    {o : ObjectId} {w : World} (hw : w = (World.initial opts).replay before)
    {k : ClassId} (hk : (Event.entered f a).starts .body k o = true)
    {b : ClassId} (hkb : w.registry.IsA k b) (hbk : b ≠ k)
    (hb : w.registry.DeclaresConstructor b) :
    ConstructorOver o before w.stack.frames b ∨
    .chained ∈ before ∧ ∃ d, w.registry.IsA k d ∧ d ≠ k ∧ w.registry.IsA d b ∧
      (ConstructionGoesOn w.registry o f a (World.initial opts) before d ∨
        FailsOnward o (ConstructionFails o d) (World.initial opts) before) := by
  subst hw
  have hinitial := World.sound_initial opts
  obtain ⟨x, hcourse⟩ := Session.history_course hinitial loads es
  have henters := hcourse.enters hes
  have hr := (henters.sound hinitial).built
  have hgrows := Registry.GrowsTo.refl ((World.initial opts).replay before).registry
  rcases henters.completed_or_stops hinitial hk rfl rfl hr hgrows hkb hbk with
    ⟨hcompleted, hwithin⟩ | ⟨d, hkd, hlt, hdb, hstops⟩
  · obtain ⟨run, hrun, hstart, -⟩ := hcompleted.body hb
    refine Or.inl ⟨⟨run, hrun, hstart⟩, fun g hg hkind hobject hscope => hwithin ?_⟩
    -- the frame would be there because the class is being constructed
    rcases henters.within_of_frame hinitial hg hkind hobject with hbelow | hcode | hlast
    · cases hbelow
    · exact hcode.elim
    · rwa [hscope] at hlast
  · have hne : d ≠ k := by
      rintro rfl
      exact Nat.lt_irrefl _ hlt
    have hdd : (((World.initial opts).replay before).registry).IsA d d :=
      (hr.isA_iff hdb.isSome).mpr .refl
    simp only [Event.starts, Bool.and_eq_true, decide_eq_true_eq] at hk
    have hexcepted := hstops.imp_left
      (henters.constructionGoesOn hinitial rfl hr hgrows hk.1 hk.2 hdd hlt)
    exact Or.inr ⟨hexcepted.elim (·.chained_mem) (·.chained_mem), d, hkd, hne, hdb, hexcepted⟩

theorem Event.exists_of_starts {p : ConstructorPart} {k : ClassId} {o : ObjectId} {e : Event}
    (h : e.starts p k o = true) : ∃ f a, e = .entered f a := by
  cases e with
  | entered f a => exact ⟨f, a, rfl⟩
  | _ => cases h

/-- A constructor that starts at a given moment. -/
theorem exists_start (es : List Event) (n : Nat) {p : ConstructorPart} {k : ClassId} {o : ObjectId}
    (h : (es.drop n).head?.any (·.starts p k o) = true) :
    ∃ f a after, es = es.take n ++ .entered f a :: after ∧
      (Event.entered f a).starts p k o = true := by
  cases hdrop : es.drop n with
  | nil =>
    rw [hdrop] at h
    cases h
  | cons e after =>
    rw [hdrop] at h
    obtain ⟨f, a, rfl⟩ := Event.exists_of_starts h
    exact ⟨f, a, after, by rw [← hdrop, List.take_append_drop], h⟩

/-- Defines four classes, the last of which inherits from the first along two ways, and
creates an object of the last.  The constructor of the first chains, and so runs that of
the class on the other way, which comes later in the heritage. -/
def chaining : Expr :=
  .sequence [
    .defineClass
      { name := "Root"
        members := [.ctor none (.sequence [.chain [], .log (.const (.str "root"))])] },
    .defineClass
      { name := "Left", inherits := ["Root"]
        members := [.ctor none (.log (.const (.str "left")))] },
    .defineClass
      { name := "Right", inherits := ["Root"]
        members := [.ctor none (.log (.const (.str "right")))] },
    .defineClass { name := "Bottom", inherits := ["Left", "Right"] },
    .create (some (.const (.str "Bottom"))) (.const (.str "b")) []]

/-- Defines three classes, each of which inherits from the one before, and creates an object
of the last.  Its initializer chains to the constructor of the second and catches the
error with which the initializer of that one ends, before the first is constructed. -/
def failingMiddle : Expr :=
  .sequence [
    .defineClass { name := "Base", members := [.ctor none (.log (.const (.str "base")))] },
    .defineClass
      { name := "Middle", inherits := ["Base"]
        members := [.ctor (some (.raise .script (.const (.str "no middle"))))
          (.log (.const (.str "middle")))] },
    .defineClass
      { name := "Derived", inherits := ["Middle"]
        members := [.ctor (some (.guarded (.chain []))) (.log (.const (.str "derived")))] },
    .create (some (.const (.str "Derived"))) (.const (.str "d")) []]

/-- What happens in the session of one step until there have been that many events. -/
def historyOf (e : Expr) (n : Nat) : List Event :=
  (Session.history 0 (World.initial {}) [e]).take n

/-- The world up to that moment of the session. -/
def worldOf (e : Expr) (n : Nat) : World := (World.initial {}).replay (historyOf e n)

/-- At that moment the body of the constructor of the class starts for the object; the
class has this heritage, and the first class of the session, which has a constructor, is
in it. -/
structure StartsAt (e : Expr) (n : Nat) (k : ClassId) (ks : List ClassId) : Prop where
  starts : ((Session.history 0 (World.initial {}) [e]).drop n).head?.any
    (·.starts .body k ⟨1⟩) = true
  heritage : ((worldOf e n).registry.get? k).map (·.heritage) = some ks
  root : (((worldOf e n).registry.get? ⟨0⟩).bind (·.function? constructorName)).map
    (·.flags.isConstructor) = some true
  mem : (⟨0⟩ : ClassId) ∈ ks

section

variable {e : Expr} {n : Nat} {k d : ClassId} {ks : List ClassId} {o : ObjectId}

theorem StartsAt.isA_root (h : StartsAt e n k ks) : (worldOf e n).registry.IsA k ⟨0⟩ := by
  obtain ⟨c, hc, hheritage⟩ := Option.map_eq_some_iff.mp h.heritage
  exact ⟨c, hc, by rw [hheritage]; exact h.mem⟩

theorem StartsAt.mem_of_isA (h : StartsAt e n k ks) (hd : (worldOf e n).registry.IsA k d) :
    d ∈ ks := by
  obtain ⟨c, hc, hmem⟩ := hd
  have hheritage := h.heritage
  rw [hc, Option.map_some, Option.some.injEq] at hheritage
  rwa [hheritage] at hmem

theorem StartsAt.declaresConstructor (h : StartsAt e n k ks) :
    (worldOf e n).registry.DeclaresConstructor ⟨0⟩ := by
  obtain ⟨f, hf, hctor⟩ := Option.map_eq_some_iff.mp h.root
  obtain ⟨c, hc, hf⟩ := Option.bind_eq_some_iff.mp hf
  exact ⟨c, f, hc, hf, hctor⟩

theorem admitsAll_historyOf (e : Expr) (n : Nat) :
    (World.initial {}).AdmitsAll (historyOf e n) := by
  obtain ⟨x, hcourse⟩ := Session.history_course (World.sound_initial {}) 0 [e]
  have hadmitted := hcourse.admitsAll
  rw [← List.take_append_drop n (Session.history 0 (World.initial {}) [e])] at hadmitted
  exact (World.admitsAll_append.mp hadmitted).1

/-- Nothing has failed until then, and the object is there. -/
theorem not_failsOnward_historyOf (hlive : ((worldOf e n).objects.get? o).isSome)
    (hnone : (historyOf e n).all (!·.isFailure) = true) :
    ¬ FailsOnward o (ConstructionFails o k) (World.initial {}) (historyOf e n) :=
  not_failsOnward_of_all (World.sound_initial {}) (admitsAll_historyOf e n) hlive hnone

/-- There is no frame in which a constructor could run. -/
theorem not_goesOn_of_isEmpty {r : Registry} {f : Frame} {a : Activity}
    (hnone : (worldOf e n).stack.frames.isEmpty = true) :
    ¬ ConstructionGoesOn r o f a (World.initial {}) (historyOf e n) d := by
  intro hgoes
  obtain ⟨g, hg, -⟩ := hgoes.runs
  have hg : g ∈ (worldOf e n).stack.frames := hg
  rw [List.isEmpty_iff.mp hnone] at hg
  cases hg

theorem not_bodyEnded_of_any {es : List Event}
    (h : (endedRuns [] es).any (·.start.starts .body k o) = false) : ¬ BodyEnded o k es := by
  intro hended
  rw [List.any_eq_true.mpr hended] at h
  cases h

end

theorem startsAt_left : StartsAt chaining 17 ⟨1⟩ [⟨1⟩, ⟨0⟩] where
  starts := by decide +kernel
  heritage := by decide +kernel
  root := by decide +kernel
  mem := by decide

theorem startsAt_right : StartsAt chaining 12 ⟨2⟩ [⟨2⟩, ⟨0⟩] where
  starts := by decide +kernel
  heritage := by decide +kernel
  root := by decide +kernel
  mem := by decide

theorem startsAt_derived : StartsAt failingMiddle 12 ⟨2⟩ [⟨2⟩, ⟨1⟩, ⟨0⟩] where
  starts := by decide +kernel
  heritage := by decide +kernel
  root := by decide +kernel
  mem := by decide

theorem not_bodyEnded_right : ¬ BodyEnded ⟨1⟩ ⟨0⟩ (historyOf chaining 12) :=
  not_bodyEnded_of_any (by decide +kernel)

/-- Where the body on the way that is taken first starts, that of the first class has
run; on the other way it is still running.  Where code has chained to what has failed, it
has not run. -/
theorem superclasses_of_chaining :
    ConstructorOver ⟨1⟩ (historyOf chaining 17) (worldOf chaining 17).stack.frames ⟨0⟩ ∧
      (∃ f a, ConstructionGoesOn (worldOf chaining 12).registry ⟨1⟩ f a (World.initial {})
        (historyOf chaining 12) ⟨0⟩) ∧
      ∃ d, FailsOnward ⟨1⟩ (ConstructionFails ⟨1⟩ d) (World.initial {})
        (historyOf failingMiddle 12) := by
  have hroot {e : Expr} {n : Nat} {k : ClassId} {ks : List ClassId} (h : StartsAt e n k ks)
      (hne : ⟨0⟩ ≠ k) :
      ConstructorOver ⟨1⟩ (historyOf e n) (worldOf e n).stack.frames ⟨0⟩ ∨
        ∃ d ∈ ks, d ≠ k ∧ ((∃ f a, ConstructionGoesOn (worldOf e n).registry ⟨1⟩ f a
            (World.initial {}) (historyOf e n) d) ∨
          FailsOnward ⟨1⟩ (ConstructionFails ⟨1⟩ d) (World.initial {}) (historyOf e n)) := by
    obtain ⟨f, a, after, hes, hstart⟩ := exists_start _ n h.starts
    refine (superclasses_constructed_first 0 {} [e] hes (w := worldOf e n) rfl hstart h.isA_root
      hne h.declaresConstructor).imp_right ?_
    rintro ⟨-, d, hd, hdk, -, hgoes | hfails⟩
    · exact ⟨d, h.mem_of_isA hd, hdk, Or.inl ⟨f, a, hgoes⟩⟩
    · exact ⟨d, h.mem_of_isA hd, hdk, Or.inr hfails⟩
  refine ⟨?_, ?_, ?_⟩
  · refine (hroot startsAt_left (by decide)).resolve_right ?_
    rintro ⟨d, hd, hdk, ⟨f, a, hgoes⟩ | hfails⟩
    · obtain rfl : d = ⟨0⟩ := by simpa [hdk] using hd
      exact hgoes.unfinished (List.any_eq_true.mp (by decide +kernel))
    · exact not_failsOnward_historyOf (by decide +kernel) (by decide +kernel) hfails
  · rcases hroot startsAt_right (by decide) with hover | ⟨d, hd, hdk, hgoes | hfails⟩
    · exact absurd hover.ended not_bodyEnded_right
    · obtain rfl : d = ⟨0⟩ := by simpa [hdk] using hd
      exact hgoes
    · exact absurd hfails (not_failsOnward_historyOf (by decide +kernel) (by decide +kernel))
  · rcases hroot startsAt_derived (by decide) with hover | ⟨d, -, -, ⟨f, a, hgoes⟩ | hfails⟩
    · exact absurd hover.ended (not_bodyEnded_of_any (by decide +kernel))
    · exact absurd hgoes (not_goesOn_of_isEmpty (by decide +kernel))
    · exact ⟨d, hfails⟩

/-- **The body of a constructor can start while a class that it inherits from is being
constructed.** -/
theorem exists_start_before_superclass :
    ¬ ∀ (loads : Nat) (opts : EngineOptions) (es : List Expr) (before after : List Event)
        (f : Frame) (a : Activity),
      Session.history loads (World.initial opts) es = before ++ .entered f a :: after →
      ∀ (o : ObjectId) (w : World), w = (World.initial opts).replay before →
      ∀ k, (Event.entered f a).starts .body k o = true →
      ∀ b, w.registry.IsA k b → b ≠ k → w.registry.DeclaresConstructor b →
        ConstructorOver o before w.stack.frames b := by
  intro h
  obtain ⟨f, a, after, hes, hstart⟩ := exists_start _ 12 startsAt_right.starts
  have hover := h 0 {} [chaining] _ after f a hes ⟨1⟩ (worldOf chaining 12) rfl ⟨2⟩ hstart ⟨0⟩
    startsAt_right.isA_root (by decide) startsAt_right.declaresConstructor
  exact not_bodyEnded_right hover.ended

end ObjectDispatch
