import ObjectDispatch.Proofs.Handling

/-!
# Constructions are completed

A class is marked as constructed before its constructor runs, so the mark does not say
how the run has ended.  Either the construction is completed: the superclasses have been
marked, and the body of the constructor has run and returned.  Or it fails, and so does
what has set it going: the construction of a class that inherits it, and so on, until the
object is removed, unless code has set it going.  Code does so by chaining to a
constructor, and it can catch the error of what it has chained to; the marks stay.

So there is one way only to a mark without a completed construction, as long as the object
is there: code has chained to a constructor that has failed.  The same holds of each run
of a constructor that has failed.

## Main definitions

* `HasMark`, `Completed` — what a construction leaves.
* `ConstructionFails`, `FailsOnward` — a construction that fails, and one that code has
  chained to.
* `Task.Constructs`, `Task.Involves` — the tasks of a construction.
* `Failing` — where a failure has come to.

## Main results

* `Course.completed_or_failing` — **what becomes of a class that is marked.**
* `Course.failing_of_runFails` — what becomes of a constructor that fails.
* `Course.endsWith_failedRun` — a construction fails with a constructor.
* `Course.completed_heritage` — what becomes of a heritage.
-/

namespace ObjectDispatch

/-! ### What a construction leaves -/

/-- The class has a constructor that was declared as one. -/
def Registry.DeclaresConstructor (r : Registry) (k : ClassId) : Prop :=
  ∃ c f, r.get? k = some c ∧ c.function? constructorName = some f ∧ f.flags.isConstructor = true

/-- The class has been marked for the object, by the events or before them. -/
def HasMark (o : ObjectId) (k : ClassId) (w : World) (es : List Event) : Prop :=
  (∃ ob, w.objects.get? o = some ob ∧ ob.isConstructed k = true) ∨ .constructorMarked o k ∈ es

/-- The body of the constructor of the class has run for the object and has returned. -/
def BodyReturned (o : ObjectId) (k : ClassId) (es : List Event) : Prop :=
  ∃ run ∈ endedRuns [] es, run.start.starts .body k o = true ∧ run.failure = none

/-- The class has been constructed: its superclasses have been marked, and if it has a
constructor, the body of that has returned. -/
structure Completed (r : Registry) (o : ObjectId) (k : ClassId) (w : World) (es : List Event) :
    Prop where
  supers : ∀ s ∈ r.supersOf k, HasMark o s w es
  body : r.DeclaresConstructor k → BodyReturned o k es

section

variable {r : Registry} {o : ObjectId} {k : ClassId} {c : Class} {w : World} {t t' : Task}
  {before after evs es fs : List Event} {x y : Outcome Unit}

/-- Who lives at the end has lived all the time. -/
theorem World.isSome_get?_of_replay (ho : o.number ≤ w.objects.created)
    (hlive : ((w.replay es).objects.get? o).isSome) : (w.objects.get? o).isSome := by
  obtain ⟨ob', hob'⟩ := Option.isSome_iff_exists.mp hlive
  obtain ⟨ob, hob, -⟩ := (w.leadsTo_replay es).objects o ob' ho hob'
  rw [hob]
  rfl

/-- An object that is gone does not come back. -/
theorem World.get?_replay_of_gone (ho : o.number ≤ w.objects.created)
    (hgone : w.objects.get? o = none) (es : List Event) :
    (w.replay es).objects.get? o = none := by
  by_contra hlive
  have hbefore := isSome_get?_of_replay ho (Option.isSome_iff_ne_none.mpr hlive)
  rw [hgone] at hbefore
  cases hbefore

/-- A mark that an object has was set in the meantime, or the object had it before. -/
theorem World.hasMark_of_replay {ob' : Object} (hob' : (w.replay es).objects.get? o = some ob')
    (hk : ob'.isConstructed k = true) : HasMark o k w es := by
  induction es generalizing w with
  | nil => exact Or.inl ⟨ob', hob', hk⟩
  | cons e es ih =>
    rcases ih hob' with ⟨ob₁, hob₁, hk₁⟩ | hmark
    · unfold Object.isConstructed at hk₁
      rw [List.contains_iff_mem] at hk₁
      rcases object_after hob₁ with ⟨ob, hob, -, -, hmarks⟩ | ⟨_, _, -, -, rfl⟩
      · rcases hmarks k hk₁ with hbefore | rfl
        · refine Or.inl ⟨ob, hob, ?_⟩
          unfold Object.isConstructed
          rwa [List.contains_iff_mem]
        · exact Or.inr List.mem_cons_self
      · cases hk₁
    · exact Or.inr (List.mem_cons_of_mem e hmark)

theorem HasMark.part (before after : List Event) (h : HasMark o k (w.replay before) es) :
    HasMark o k w (before ++ es ++ after) := by
  rcases h with ⟨ob, hob, hk⟩ | hmark
  · rw [List.append_assoc]
    exact (World.hasMark_of_replay hob hk).imp id (List.mem_append_left _)
  · exact Or.inr (List.mem_append_left _ (List.mem_append_right _ hmark))

theorem Completed.part (before after : List Event) (h : Completed r o k (w.replay before) es)
    (hfs : fs = before ++ es ++ after) (hpart : EndsWithin es fs) : Completed r o k w fs where
  supers s hs := by
    rw [hfs]
    exact (h.supers s hs).part before after
  body hctor := by
    obtain ⟨run, hrun, hrest⟩ := h.body hctor
    exact ⟨run, hpart hrun, hrest⟩

/-! ### The tasks of a construction -/

/-- What runs is the initializer or the body of a constructor.  A function called
`constructor` is run as one even if it was not declared so. -/
def Activity.constructs : Activity → Bool
  | .initializer _ _ => true
  | .body f => f.flags.isConstructor || f.name = constructorName
  | .hook _ _ | .scoped _ => false

/-- The task is part of the construction of the object, and so is all that it consists
of. -/
def Task.Constructs (o : ObjectId) : Task → Prop
  | .done => True
  | .frame f a => f.object = some o ∧ a.constructs = true
  | .seq t next => t.Constructs o ∧ next.Constructs o
  | .construct o' _ | .constructor o' _ => o' = o
  | _ => False

theorem Task.Constructs.subject_eq {o' : ObjectId} (ht : t.Constructs o)
    (hsubject : t.subject? = some o') : o' = o := by
  cases t with
  | construct | constructor =>
    cases hsubject
    exact ht
  | delete | destruct | destructOnward | assign => exact ht.elim
  | _ => cases hsubject

theorem constructs_all_construct (o : ObjectId) (ks : List ClassId) :
    (Task.all (ks.map (.construct o))).Constructs o := by
  induction ks with
  | nil => trivial
  | cons k ks ih => exact ⟨rfl, ih⟩

theorem constructs_initialization (f : MemberFunction) (o : ObjectId) :
    (f.initialization o).Constructs o := by
  unfold MemberFunction.initialization
  cases f.initializer with
  | none => trivial
  | some code => exact ⟨rfl, rfl⟩

/-- A construction goes on as a construction. -/
theorem Task.Begins.constructs (h : t.Begins w evs t') (hw : w.Sound) (ht : t.Constructs o) :
    t'.Constructs o := by
  cases h with
  | constructed | constructorBegun => trivial
  | constructOwn => exact ht
  | constructSupers =>
    obtain rfl : _ = o := ht
    exact constructs_all_construct _ _
  | @constructor o' f ob c hob hk hc hf =>
    obtain rfl : o' = o := ht
    have hname := (hw.built.function?_spec hc hf).2.1
    have hbody : (Activity.body f).constructs = true := by simp [Activity.constructs, hname]
    exact ⟨constructs_initialization f o', constructs_all_construct o' c.supers, rfl, hbody⟩
  | create | delete | destructNone | destructed | destruct | destructorBegun | destructOnward
  | chain | remove | assign => exact ht.elim

theorem Task.Constructs.framed (ht : t.Constructs o) : t.Framed := by
  induction t with
  | seq t next ih ih' => exact ⟨ih ht.1, ih' ht.2⟩
  | code | building | guarded | chain => exact ht.elim
  | _ => trivial

/-- Some part of the task, not counting what code does in it, is to run the constructor of
one of these classes for the object. -/
def Task.Involves (C : ClassId → Prop) (o : ObjectId) : Task → Prop
  | .frame f a => f.object = some o ∧ ∃ p k, a.part? = some (p, k) ∧ C k
  | .building _ t | .guarded t _ => t.Involves C o
  | .seq t next => t.Involves C o ∨ next.Involves C o
  | .construct o' k => o' = o ∧ C k
  | .constructor o' f => o' = o ∧ C f.owner
  | .destructOnward _ f => f.flags.isConstructor = true
  | _ => False

section

variable {C : ClassId → Prop}

theorem Task.exists_of_involves_all {ts : List Task} (h : (Task.all ts).Involves C o) :
    ∃ t ∈ ts, t.Involves C o := by
  induction ts with
  | nil => exact h.elim
  | cons t ts ih =>
    rcases h with h | h
    · exact ⟨t, List.mem_cons_self, h⟩
    · obtain ⟨t', ht', h⟩ := ih h
      exact ⟨t', List.mem_cons_of_mem t ht', h⟩

theorem Task.not_involves_frame {f : Frame} {a : Activity} (ha : a.part? = none) :
    ¬ (Task.frame f a).Involves C o := by
  rintro ⟨-, p, k, hpart, -⟩
  rw [ha] at hpart
  cases hpart

/-- Code runs constructors by creating objects or by chaining. -/
theorem World.Available.not_involves (ht : w.Available t) (hw : w.Sound) :
    ¬ t.Involves C o := by
  cases ht with
  | method _ hc hf _ | procedure hc hf _ _ =>
    have hctor := (hw.built.resolveFunction?_spec hc hf).1
    exact Task.not_involves_frame (Activity.part?_body_eq_none hctor)
  | scope => exact Task.not_involves_frame rfl
  | onward _ _ hctor _ => exact Task.not_involves_frame (Activity.part?_body_eq_none hctor)
  | _ => exact id

/-- **Where the constructor of an object comes from**: the task was to run it already, or
the object is created here, or code has chained to it.  The classes are some that
are among them whenever one of their superclasses is. -/
theorem Task.Begins.involves (h : t.Begins w evs t') (hw : w.Sound)
    (hC : ∀ {k c}, w.registry.get? k = some c → ∀ s ∈ c.supers, C s → C k)
    (ht' : t'.Involves C o) :
    t.Involves C o ∨ (∃ cls name, t = .create cls name ∧ o = w.objects.nextId) ∨
      ∃ f, t = .chain (.constructor o f) ∧ t' = .constructor o f ∧ evs = [.chained] := by
  have hsupers {o' : ObjectId} {k : ClassId} {c : Class} (hc : w.registry.get? k = some c)
      (h : (Task.all (c.supers.map (.construct o'))).Involves C o) : o' = o ∧ C k := by
    obtain ⟨_, hmem, hinvolves⟩ := Task.exists_of_involves_all h
    obtain ⟨s, hs, rfl⟩ := List.mem_map.mp hmem
    exact ⟨hinvolves.1, hC hc s hs hinvolves.2⟩
  cases h with
  | create =>
    refine Or.inr (Or.inl ⟨_, _, rfl, ?_⟩)
    rcases ht' with ⟨ho, -⟩ | hdone
    · exact ho.symm
    · exact hdone.elim
  | constructOwn _ _ hc hf =>
    rw [← (hw.built.function?_spec hc hf).1]
    exact Or.inl ht'
  | constructSupers _ _ hc => exact Or.inl (hsupers hc ht')
  | @constructor o' f ob c _ _ hc =>
    refine Or.inl ?_
    rcases ht' with hinit | h | ⟨hobject, p, k, hpart, hk⟩
    · unfold MemberFunction.initialization at hinit
      cases hf : f.initializer with
      | none =>
        rw [hf] at hinit
        exact hinit.elim
      | some code =>
        rw [hf] at hinit
        obtain ⟨hobject, p, k, hpart, hk⟩ := hinit
        cases hpart
        exact ⟨Option.some.inj hobject, hk⟩
    · exact hsupers hc h
    · rw [(Activity.of_part?_body hpart).2] at hk
      exact ⟨Option.some.inj hobject, hk⟩
  | delete =>
    rcases ht' with h | h
    · obtain ⟨_, hmem, hinvolves⟩ := Task.exists_of_involves_all h
      obtain ⟨k, -, rfl⟩ := List.mem_map.mp hmem
      exact hinvolves.elim
    · exact h.elim
  | destruct _ _ hc hf =>
    have hctor := hw.built.isConstructor_eq_false hc hf (by decide)
    exact (Task.not_involves_frame (Activity.part?_body_eq_none hctor) ht').elim
  | @destructOnward o' f =>
    refine Or.inl ?_
    by_contra hctor
    exact Task.not_involves_frame (Activity.part?_body_eq_none (by simpa [Involves] using hctor))
      ht'
  | chain honward =>
    cases t' with
    | «constructor» o' f =>
      obtain rfl : o' = o := ht'.1
      exact Or.inr (Or.inr ⟨f, rfl, rfl, rfl⟩)
    | destructOnward o' f =>
      have hctor : f.flags.isConstructor = false := honward
      rw [show f.flags.isConstructor = true from ht'] at hctor
      cases hctor
    | _ => exact honward.elim
  | @assign o' v =>
    unfold Variable.hooking at ht'
    split at ht'
    · exact ht'.elim
    · rcases ht' with h | h
      · exact (Task.not_involves_frame rfl h).elim
      · exact h.elim
  | constructed | constructorBegun | destructNone | destructed | destructorBegun | remove =>
    exact ht'.elim

end

/-! ### Constructions that fail -/

theorem World.get?_of_remove (w : World) (o : ObjectId) :
    (w.replay ((Undo.remove o).events w)).objects.get? o = none := by
  unfold Undo.events
  split
  · exact w.get?_after_objectRemoved o
  · next hdead => simpa [Undo.object] using hdead

/-- A creation that fails has removed what it has created, whatever its constructors
have done. -/
theorem Course.get?_of_failed_create {cls : ClassId} {name : String} {e : DispatchError}
    (h : Course (.create cls name) w es (.failure e)) (hw : w.Sound) :
    (w.replay es).objects.get? w.objects.nextId = none := by
  cases h with
  | notCreated => exact hw.get?_nextId
  | gone _ hsubject => cases hsubject
  | begins h h' =>
    cases h with
    | create =>
      rw [World.replay_append]
      rcases h'.cases_of_seq with ⟨hguarded, -⟩ | ⟨_, _, _, -, hdone⟩
      · rcases hguarded.cases_of_guarded with ⟨-, hx⟩ | ⟨_, _, _, rfl, -, -⟩
        · exact absurd rfl (hx e)
        · rw [World.replay_append]
          exact World.get?_of_remove _ _
      · rcases hdone.cases_of_done with ⟨-, hx | hx⟩ <;> cases hx

/-- The last of the events are such that `S` holds of them. -/
def EndsWith (S : World → List Event → Prop) (w : World) (es : List Event) : Prop :=
  ∃ start last, es = start ++ last ∧ S (w.replay start) last

/-- The class is marked for the object, and then its construction fails. -/
def ConstructionFails (o : ObjectId) (k : ClassId) (w : World) (es : List Event) : Prop :=
  ∃ rest e, es = .constructorMarked o k :: rest ∧ Course (.construct o k) w es (.failure e)

/-- Code chains to a constructor, which runs for the object and fails, and what fails last
is what `S` says. -/
def FailsOnward (o : ObjectId) (S : World → List Event → Prop) (w : World) (es : List Event) :
    Prop :=
  ∃ before onward after f e, es = before ++ .chained :: (onward ++ after) ∧
    Course (.constructor o f) (w.replay (before ++ [.chained])) onward (.failure e) ∧
    EndsWith S (w.replay (before ++ [.chained])) onward

/-- Where a failure has come to, of which `S` tells.  Code has chained to what has failed,
or the task has failed with it, or it was the creation of the object, which is gone. -/
inductive Failing (S : World → List Event → Prop) (o : ObjectId) (t : Task) (w : World)
    (es : List Event) (x : Outcome Unit) : Prop
  | handled (h : Handled (FailsOnward o S) t w es x)
  | own (hx : ∃ e, x = .failure e) (ht : t.Involves (fun _ => True) o)
      (h : t.Constructs o → EndsWith S w es)
  | gone (hnew : w.objects.created < o.number) (ho : o.number ≤ (w.replay es).objects.created)
      (hgone : (w.replay es).objects.get? o = none)

section

variable {S : World → List Event → Prop}

theorem EndsWith.of_append (before : List Event) (h : EndsWith S (w.replay before) es) :
    EndsWith S w (before ++ es) := by
  obtain ⟨start, last, rfl, hlast⟩ := h
  refine ⟨before ++ start, last, (List.append_assoc _ _ _).symm, ?_⟩
  rw [World.replay_append]
  exact hlast

theorem EndsWith.mem {e : Event} (h : EndsWith S w es) (hS : ∀ {v last}, S v last → e ∈ last) :
    e ∈ es := by
  obtain ⟨start, last, rfl, hlast⟩ := h
  exact List.mem_append_right start (hS hlast)

theorem FailsOnward.chained_mem (h : FailsOnward o S w es) : .chained ∈ es := by
  obtain ⟨before, onward, after, f, e, rfl, -⟩ := h
  exact List.mem_append_right before List.mem_cons_self

theorem persists_failsOnward : Persists (FailsOnward o S) := by
  rintro w _ earlier later ⟨before, onward, after, f, e, rfl, hcourse, hlast⟩
  refine ⟨earlier ++ before, onward, after ++ later, f, e, by simp, ?_⟩
  rw [List.append_assoc, World.replay_append]
  exact ⟨hcourse, hlast⟩

/-- What has come to an end in a part of a task is where it was; the task fails with the
part. -/
theorem Failing.part (before after : List Event) (h : Failing S o t (w.replay before) es x)
    (hfs : fs = before ++ es ++ after)
    (hend : t'.Framed → y = .value () → t.Framed ∧ x = .value ())
    (hown : (∃ e, x = .failure e) → t.Involves (fun _ => True) o → (∃ e, y = .failure e) ∧
      t'.Involves (fun _ => True) o ∧ (t'.Constructs o → t.Constructs o ∧ after = [])) :
    Failing S o t' w fs y := by
  cases h with
  | handled h => exact .handled (h.part persists_failsOnward before after hfs hend)
  | own hx ht hlast =>
    obtain ⟨hy, ht', hconstructs⟩ := hown hx ht
    refine .own hy ht' fun hc => ?_
    obtain ⟨hpart, rfl⟩ := hconstructs hc
    rw [hfs, List.append_nil]
    exact (hlast hpart).of_append before
  | gone hnew ho hgone =>
    have hcreated := (w.leadsTo_replay before).created
    rw [← World.replay_append] at ho hgone
    refine .gone (Nat.lt_of_le_of_lt hcreated hnew) ?_ ?_
    · rw [hfs, World.replay_append]
      exact Nat.le_trans ho (World.leadsTo_replay _ after).created
    · rw [hfs, World.replay_append]
      exact World.get?_replay_of_gone ho hgone after

theorem Failing.whole (h : Failing S o t w es x)
    (hend : t'.Framed → y = .value () → t.Framed ∧ x = .value ())
    (hown : (∃ e, x = .failure e) → t.Involves (fun _ => True) o → (∃ e, y = .failure e) ∧
      t'.Involves (fun _ => True) o ∧ (t'.Constructs o → t.Constructs o)) :
    Failing S o t' w es y :=
  h.part [] [] (List.append_nil _).symm hend fun hx ht =>
    ⟨(hown hx ht).1, (hown hx ht).2.1, fun hc => ⟨(hown hx ht).2.2 hc, rfl⟩⟩

/-- Code that runs in a frame fails no construction but by chaining. -/
theorem Failing.frame {f : Frame} {a : Activity} (hes : x ≠ .exhausted → Balanced es)
    (h : Failing S o .code (w.after (.entered f a)) es x) :
    Failing S o (.frame f a) w (.entered f a :: (es ++ x.leaving)) x := by
  cases h with
  | handled h => exact .handled (h.frame persists_failsOnward hes)
  | own _ ht => exact ht.elim
  | gone hnew ho hgone =>
    refine .gone hnew ?_ ?_
    · rw [World.replay_cons, World.replay_append]
      exact Nat.le_trans ho (World.leadsTo_replay _ x.leaving).created
    · rw [World.replay_cons, World.replay_append]
      exact World.get?_replay_of_gone ho hgone x.leaving

/-- **How a failure comes to the task that has set things going**: it fails with it, unless
code has chained to what fails, or the object has been created here and is removed. -/
theorem Failing.begins (h : t.Begins w evs t') (h' : Course t' (w.replay evs) es x)
    (hw : w.Sound) (hfailing : Failing S o t' (w.replay evs) es x) :
    Failing S o t w (evs ++ es) x := by
  cases hfailing with
  | handled hhandled =>
    exact .handled (hhandled.part persists_failsOnward evs [] (by simp)
      fun ht hx => ⟨h.framed ht, hx⟩)
  | own hx ht' hlast =>
    rcases h.involves hw (fun _ _ _ _ => trivial) ht' with
      ht | ⟨cls, name, rfl, rfl⟩ | ⟨f, rfl, rfl, rfl⟩
    · exact .own hx ht fun hc => (hlast (h.constructs hw hc)).of_append evs
    · obtain ⟨e, rfl⟩ := hx
      have hgone := (Course.begins h h').get?_of_failed_create hw
      cases h with
      | create =>
        refine .gone (Nat.lt_succ_self _) ?_ hgone
        rw [List.cons_append, World.replay_cons]
        exact (World.leadsTo_replay (w.after (.objectCreated name cls)) _).created
    · obtain ⟨e, rfl⟩ := hx
      refine .handled (Or.inr ⟨⟨[], es, [], f, e, by simp, h', hlast rfl⟩, fun hframed => ?_⟩)
      exact hframed.elim
  | gone hnew ho hgone =>
    rw [← World.replay_append] at ho hgone
    exact .gone (Nat.lt_of_le_of_lt (w.leadsTo_replay evs).created hnew) ho hgone

end

/-! ### Where things go wrong -/

/-- No frame is entered, left or refused, no object begins or ceases to be there, and no
class is marked. -/
def Event.IsCalm : Event → Prop
  | .entered _ _ | .left _ | .refused _ _ | .objectCreated _ _ | .constructorMarked _ _
  | .destructorMarked _ _ | .deletionBegun _ => False
  | _ => True

theorem Event.IsCalm.isQuiet {e : Event} (he : e.IsCalm) : e.IsQuiet := by
  cases e <;> trivial

theorem Event.IsPlain.isCalm {e : Event} (he : e.IsPlain) : e.IsCalm := by
  cases e <;> trivial

theorem Undo.isCalm_of_mem_events {u : Undo} {e : Event} (he : e ∈ u.events w) : e.IsCalm := by
  rw [Undo.eq_event_of_mem he]
  cases u with
  | restore o y v => cases v <;> trivial
  | _ => trivial

/-- What `Q` finds wrong with the events of a task, it finds wrong with those of one of its
parts, unless there is a failure with them that `S` tells of. -/
structure Traced (Q S : World → List Event → Prop) (o : ObjectId) : Prop where
  calm {w : World} {es : List Event} (hes : ∀ e ∈ es, e.IsCalm) : ¬ Q w es
  split {w : World} {es fs : List Event} (hes : Balanced es) (hwrong : Q w (es ++ fs)) :
    Q w es ∨ Q (w.replay es) fs
  begins {t t' : Task} {w : World} {evs es : List Event} {x : Outcome Unit} (hw : w.Sound)
    (h : t.Begins w evs t') (h' : Course t' (w.replay evs) es x) (hx : x ≠ .exhausted)
    (hwrong : Q w (evs ++ es)) : Q (w.replay evs) es ∨ Failing S o t w (evs ++ es) x
  frame {f : Frame} {a : Activity} {w : World} {es : List Event} {x : Outcome Unit}
    (h : Course .code (w.after (.entered f a)) es x) (hx : x ≠ .exhausted)
    (hwrong : Q w (.entered f a :: (es ++ x.leaving))) :
    Q (w.after (.entered f a)) es ∨
      Failing S o (.frame f a) w (.entered f a :: (es ++ x.leaving)) x
  refused {f : Frame} {a : Activity} {w : World} (hwrong : Q w [.refused f a]) :
    Failing S o (.frame f a) w [.refused f a] (.failure (.usage .tooDeep))

/-- **What is wrong with a course comes from a failure.**  The induction is on the course;
where a task has parts, the part fails in which things go wrong. -/
theorem Course.failing {Q S : World → List Event → Prop} (h : Course t w es x)
    (hQ : Traced Q S o) (hx : x ≠ .exhausted) (hw : w.Sound) (hwrong : Q w es) :
    Failing S o t w es x := by
  induction h with
  | cut => exact absurd rfl hx
  | done | gone | notCreated | idle => exact (hQ.calm (fun _ he => by cases he) hwrong).elim
  | begins h h' ih =>
    rcases hQ.begins hw h h' hx hwrong with hrest | hfailing
    · exact .begins h h' hw (ih hx (hw.replay h.admitsAll) hrest)
    · exact hfailing
  | refused => exact hQ.refused hwrong
  | frame hroom h ih =>
    rcases hQ.frame h hx hwrong with hinside | hfailing
    · exact (ih hx (hw.after hroom) hinside).frame h.balanced
    · exact hfailing
  | @building o' t w es x h ih =>
    have hbegun : Balanced [.constructionBegun o'] := .quiet trivial .nil
    have hcalm : (Event.constructionBegun o').IsCalm := trivial
    rcases hQ.split hbegun hwrong with hbegun | hrest
    · exact (hQ.calm (List.forall_mem_singleton.mpr hcalm) hbegun).elim
    · rcases hQ.split (h.balanced hx) hrest with hinside | hclosing
      · refine (ih hx (hw.after trivial) hinside).part [.constructionBegun o']
          (x.closing o') (by simp) (fun ht hy => ⟨ht, hy⟩) fun hy ht => ?_
        exact ⟨hy, ht, fun hc => hc.elim⟩
      · refine (hQ.calm (fun e he => ?_) hclosing).elim
        rw [Outcome.eq_of_mem_closing he]
        trivial
  | @seq t next w es fs x h h' ih ih' =>
    rcases hQ.split (h.balanced Outcome.value_ne_exhausted) hwrong with hfirst | hrest
    · refine (ih Outcome.value_ne_exhausted hw hfirst).part [] fs rfl
        (fun ht _ => ⟨ht.1, rfl⟩) ?_
      rintro ⟨e, hx⟩
      cases hx
    · refine (ih' hx (h.sound hw) hrest).part es [] (List.append_nil _).symm
        (fun ht hy => ⟨ht.2, hy⟩) fun hy ht => ?_
      exact ⟨hy, Or.inr ht, fun hc => ⟨hc.2, rfl⟩⟩
  | @andThen w es fs x h h' ih ih' =>
    rcases hQ.split (h.balanced Outcome.value_ne_exhausted) hwrong with hfirst | hrest
    · exact (ih Outcome.value_ne_exhausted hw hfirst).part [] fs rfl
        (fun ht => ht.elim) fun _ ht => ht.elim
    · exact (ih' hx (h.sound hw) hrest).part es [] (List.append_nil _).symm
        (fun ht => ht.elim) fun _ ht => ht.elim
  | seqStop h hstop ih =>
    exact (ih hx hw hwrong).whole (fun _ hy => absurd hy hstop) fun hy ht =>
      ⟨hy, Or.inl ht, And.left⟩
  | guarded h hfail ih =>
    refine (ih hx hw hwrong).whole (fun ht hy => ⟨ht, hy⟩) ?_
    rintro ⟨e, hy⟩
    exact absurd hy (hfail e)
  | @undone t u w es e e' h ih =>
    rcases hQ.split (h.balanced Outcome.failure_ne_exhausted) hwrong with hfirst | hundone
    · refine (ih Outcome.failure_ne_exhausted hw hfirst).part [] _ rfl
        (fun _ => nofun) fun _ ht => ?_
      exact ⟨⟨e', rfl⟩, ht, fun hc => hc.elim⟩
    · exact (hQ.calm (fun e he => Undo.isCalm_of_mem_events he) hundone).elim
  | plain _ hplain => exact (hQ.calm (List.forall_mem_singleton.mpr hplain.isCalm) hwrong).elim
  | task ht _ ih =>
    exact (ih hx hw hwrong).whole (fun hframed => hframed.elim) fun _ hinvolves =>
      (ht.not_involves hw hinvolves).elim
  | ends _ hx' _ ih =>
    exact (ih hx' hw hwrong).whole (fun ht => ht.elim) fun _ ht => ht.elim

/-! ### Runs of constructors that fail -/

/-- Nothing fails in a frame but what runs in it, or the frame. -/
theorem traced_runFails {f : Frame} {a : Activity} (hobject : f.object = some o)
    (ha : a.part?.isSome) :
    Traced (fun _ es => RunFails f a es) (fun _ run => FailedRun f a run) o where
  calm hes hfails := by
    refine not_runFails_of_isQuiet (fun e he => (hes e he).isQuiet) (fun g b hrefused => ?_) hfails
    exact hes _ hrefused
  split hes hfails := hes.runFails_append hfails
  begins _ h _ _ hfails :=
    Or.inl (((balanced_of_isQuiet h.isQuiet).runFails_append hfails).resolve_left
      (not_runFails_of_isQuiet h.isQuiet h.not_refused))
  frame h hx hfails := by
    refine (h.runFails_of_frame hx hfails).imp_right ?_
    rintro ⟨rfl, rfl, e, rfl⟩
    obtain ⟨⟨p, k⟩, hpart⟩ := Option.isSome_iff_exists.mp ha
    exact .own ⟨e, rfl⟩ ⟨hobject, p, k, hpart, trivial⟩ fun _ =>
      ⟨[], _, rfl, .raised e (h.balanced hx)⟩
  refused hfails := by
    rcases hfails with ⟨e, hrun⟩ | hrefused
    · cases hrun
    · cases List.mem_singleton.mp hrefused
      obtain ⟨⟨p, k⟩, hpart⟩ := Option.isSome_iff_exists.mp ha
      exact .own ⟨_, rfl⟩ ⟨hobject, p, k, hpart, trivial⟩ fun _ => ⟨[], _, rfl, .refused⟩

/-- **What becomes of a constructor that fails**: so does what has set it going, unless
code has chained to it. -/
theorem Course.failing_of_runFails {f : Frame} {a : Activity} (h : Course t w es x)
    (hx : x ≠ .exhausted) (hw : w.Sound) (hobject : f.object = some o) (ha : a.part?.isSome)
    (hfails : RunFails f a es) : Failing (fun _ run => FailedRun f a run) o t w es x :=
  h.failing (traced_runFails hobject ha) hx hw hfails

/-- **A construction fails with a constructor**, if the object is still there. -/
theorem Course.endsWith_failedRun {e : DispatchError} (h : Course t w es (.failure e))
    (hw : w.Sound) (ht : t.Constructs o) (ho : o.number ≤ w.objects.created)
    (hlive : ((w.replay es).objects.get? o).isSome) :
    EndsWith (fun _ run => ∃ f a, f.object = some o ∧ a.constructs = true ∧ FailedRun f a run)
      w es := by
  generalize hx : Outcome.failure e = x at h
  induction h with
  | @gone t w o' e hsubject hdead =>
    rw [← ht.subject_eq hsubject, World.replay_nil, hdead] at hlive
    cases hlive
  | @begins t t' w evs es x h _ ih =>
    rw [World.replay_append] at hlive
    exact (ih (hw.replay h.admitsAll) (h.constructs hw ht)
      (Nat.le_trans ho (w.leadsTo_replay evs).created) hlive hx).of_append evs
  | @refused w f a => exact ⟨[], _, rfl, f, a, ht.1, ht.2, .refused⟩
  | @frame w f a es x _ h =>
    subst hx
    exact ⟨[], _, rfl, f, a, ht.1, ht.2, .raised e (h.balanced nofun)⟩
  | @seq t next w es fs x h _ _ ih' =>
    rw [World.replay_append] at hlive
    exact (ih' (h.sound hw) ht.2 (Nat.le_trans ho (w.leadsTo_replay es).created) hlive
      hx).of_append es
  | seqStop _ _ ih => exact ih hw ht.1 ho hlive hx
  | cut | done => cases hx
  | notCreated | building | guarded | undone | idle | plain | task | andThen | ends => exact ht.elim

/-- What code has chained to in vain has failed with a constructor, if the object is still
there. -/
theorem FailsOnward.exists_failedRun (h : FailsOnward o (ConstructionFails o k) w es)
    (hw : w.Sound) (hes : w.AdmitsAll es) (hlive : ((w.replay es).objects.get? o).isSome) :
    ∃ before run after f a, es = before ++ run ++ after ∧ FailedRun f a run ∧
      f.object = some o ∧ a.constructs = true := by
  obtain ⟨before, onward, after, f, e, rfl, hcourse, start, last, honward, rest, _, hlast, -⟩ := h
  have hsplit : before ++ .chained :: (onward ++ after) =
      before ++ [.chained] ++ onward ++ after := by simp
  rw [hsplit] at hes hlive ⊢
  rw [World.admitsAll_append, World.admitsAll_append] at hes
  rw [World.replay_append, World.replay_append] at hlive
  have hsound := hw.replay hes.1.1
  -- where something has happened the object was there
  obtain ⟨ob, hob⟩ : ∃ ob, (w.replay (before ++ [.chained])).objects.get? o = some ob := by
    cases hcourse with
    | gone => simp [hlast] at honward
    | begins h => cases h with
      | constructorBegun hob | constructor hob => exact ⟨_, hob⟩
  have ho := hsound.allocated o ob hob
  have hlive := World.isSome_get?_of_replay
    (Nat.le_trans ho (World.leadsTo_replay _ _).created) hlive
  obtain ⟨earlier, run, hrun, g, a, hobject, ha, hfailed⟩ :=
    hcourse.endsWith_failedRun hsound rfl ho hlive
  rw [hrun]
  exact ⟨before ++ [.chained] ++ earlier, run, after, g, a, by simp, hfailed, hobject, ha⟩

/-- Where nothing has failed, code has chained to nothing in vain, if the object is still
there. -/
theorem not_failsOnward_of_all (hw : w.Sound) (hes : w.AdmitsAll es)
    (hlive : ((w.replay es).objects.get? o).isSome) (hnone : es.all (!·.isFailure) = true) :
    ¬ FailsOnward o (ConstructionFails o k) w es := by
  intro hfails
  obtain ⟨before, run, after, f, a, rfl, hfailed, -⟩ := hfails.exists_failedRun hw hes hlive
  obtain ⟨e, he, hfailure⟩ := hfailed.exists_isFailure
  have hcalm := List.all_eq_true.mp hnone e (by simp [he])
  rw [hfailure] at hcalm
  cases hcalm

/-! ### Marks without a completed construction -/

/-- Tasks in sequence have both been done. -/
theorem Course.exists_of_seq {next : Task} (h : Course (.seq t next) w es (.value ())) :
    ∃ es₁ es₂, es = es₁ ++ es₂ ∧ Course t w es₁ (.value ()) ∧
      Course next (w.replay es₁) es₂ (.value ()) :=
  h.cases_of_seq.resolve_left fun hstop => hstop.2 rfl

/-- A class that has been constructed is marked. -/
theorem Course.hasMark_of_construct (h : Course (.construct o k) w es (.value ()))
    (hw : w.Sound) : HasMark o k w es := by
  cases h with
  | begins h h' =>
    cases h with
    | constructed hob hk => exact Or.inl ⟨_, hob, hk⟩
    | constructOwn _ _ hc hf =>
      obtain rfl := (hw.built.function?_spec hc hf).1
      cases h' with
      | begins h h' =>
        cases h with
        | constructorBegun hob hk => exact Or.inl ⟨_, hob, hk⟩
        | constructor => exact Or.inr List.mem_cons_self
    | constructSupers => exact Or.inr List.mem_cons_self

theorem Course.hasMark_of_all_construct {ks : List ClassId}
    (h : Course (.all (ks.map (.construct o))) w es (.value ())) (hw : w.Sound) :
    ∀ k ∈ ks, HasMark o k w es := by
  induction ks generalizing w es with
  | nil => exact nofun
  | cons k ks ih =>
    have h : Course (.seq (.construct o k) (.all (ks.map (.construct o)))) w es (.value ()) := h
    obtain ⟨es₁, es₂, rfl, h, h'⟩ := h.exists_of_seq
    refine List.forall_mem_cons.mpr ⟨?_, fun s hs => ?_⟩
    · exact (h.hasMark_of_construct hw).part [] es₂
    · have hmark := (ih h' (h.sound hw) s hs).part es₁ []
      rwa [List.append_nil] at hmark

/-- What happens from a mark on is the construction of the class. -/
theorem Course.construct_of_mark (h : t.Begins w evs t') (h' : Course t' (w.replay evs) es x)
    (hmark : .constructorMarked o k ∈ evs) : Course (.construct o k) w (evs ++ es) x := by
  obtain ⟨-, ob, c, hob, hk, hc, ⟨rfl, -, -⟩ | ⟨f, rfl, rfl, hf, -⟩⟩ :=
    h.of_mem_constructorMarked hmark
  · exact .begins h h'
  · rw [← List.nil_append (evs ++ es)]
    exact .begins (.constructOwn hob hk hc hf) (.begins h h')

/-- A construction that succeeds is completed. -/
theorem Course.completed_of_mark (h : t.Begins w evs t')
    (h' : Course t' (w.replay evs) es (.value ())) (hw : w.Sound)
    (hgrows : w.registry.GrowsTo r) (hmark : .constructorMarked o k ∈ evs) :
    Completed r o k w (evs ++ es) := by
  have hsound := hw.replay h.admitsAll
  have hright := (balanced_of_isQuiet h.isQuiet).endsWithin_right es
  obtain ⟨-, ob, c, hob, hk, hc, hway⟩ := h.of_mem_constructorMarked hmark
  have hr := hgrows.get? hc
  have hsupers := Registry.supersOf_eq hr
  refine Completed.part evs [] ?_ (by simp) hright
  rcases hway with ⟨-, hnone, rfl⟩ | ⟨f, rfl, -, hf, rfl⟩
  · refine ⟨fun s hs => ?_, fun hctor => ?_⟩
    · rw [hsupers] at hs
      exact h'.hasMark_of_all_construct hsound s hs
    · obtain ⟨c', f, hc', hf, -⟩ := hctor
      cases hr.symm.trans hc'
      rw [hnone] at hf
      cases hf
  · obtain ⟨es₁, es', rfl, hfirst, h'⟩ := h'.exists_of_seq
    obtain ⟨es₂, es₃, rfl, hall, hbody⟩ := h'.exists_of_seq
    refine ⟨fun s hs => ?_, fun hctor => ?_⟩
    · rw [hsupers] at hs
      have hmarked := (hall.hasMark_of_all_construct (hfirst.sound hsound) s hs).part _ es₃
      rwa [List.append_assoc] at hmarked
    · obtain ⟨c', f', hc', hf', hctor⟩ := hctor
      cases hr.symm.trans hc'
      cases hf.symm.trans hf'
      have hran := (hbody.run_of_frame nofun).resolve_right (by rintro ⟨⟨e, hx⟩, -⟩; cases hx)
      have hpart := ((hall.balanced nofun).endsWithin_right es₃).trans
        ((hfirst.balanced nofun).endsWithin_right _)
      refine ⟨_, hpart hran.2, ?_, rfl⟩
      simp [EndedRun.start, Event.starts, Activity.part?, hctor, MemberFunction.callFrame]

/-- The class has been marked, but its construction has not been completed. -/
def Unfinished (r : Registry) (o : ObjectId) (k : ClassId) (w : World) (es : List Event) : Prop :=
  .constructorMarked o k ∈ es ∧ (w.replay es).registry.GrowsTo r ∧ ¬ Completed r o k w es

/-- A class that is marked has been constructed, unless its construction fails. -/
theorem traced_unfinished : Traced (Unfinished r o k) (ConstructionFails o k) o where
  calm hes hwrong := hes _ hwrong.1
  split {w es fs} hes := by
    rintro ⟨hmark, hgrows, hwrong⟩
    rw [World.replay_append] at hgrows
    rcases List.mem_append.mp hmark with hmark | hmark
    · refine Or.inl ⟨hmark, (World.leadsTo_replay _ fs).registry.trans hgrows, fun hc => ?_⟩
      exact hwrong (hc.part [] fs rfl (endsWithin_left es fs))
    · refine Or.inr ⟨hmark, hgrows, fun hc => ?_⟩
      exact hwrong (hc.part es [] (List.append_nil _).symm (hes.endsWithin_right fs))
  begins {t t' w evs es x} hw h h' hx := by
    rintro ⟨hmark, hgrows, hwrong⟩
    rcases List.mem_append.mp hmark with hmark | hmark
    · refine Or.inr ?_
      have hcourse := Course.construct_of_mark h h' hmark
      cases x with
      | value =>
        have hgrows := (w.leadsTo_replay (evs ++ es)).registry.trans hgrows
        exact (hwrong (Course.completed_of_mark h h' hw hgrows hmark)).elim
      | failure e =>
        obtain ⟨rfl, _, _, -, -, -, hway⟩ := h.of_mem_constructorMarked hmark
        refine .own ⟨e, rfl⟩ ?_ fun _ => ⟨[], _, rfl, es, e, rfl, hcourse⟩
        rcases hway with ⟨rfl, -⟩ | ⟨f, -, rfl, -⟩ <;> exact ⟨rfl, trivial⟩
      | exhausted => exact absurd rfl hx
    · rw [World.replay_append] at hgrows
      refine Or.inl ⟨hmark, hgrows, fun hc => hwrong ?_⟩
      exact hc.part evs [] (List.append_nil _).symm
        ((balanced_of_isQuiet h.isQuiet).endsWithin_right es)
  frame {f a w es x} h hx := by
    rintro ⟨hmark, hgrows, hwrong⟩
    rw [World.replay_cons, World.replay_append] at hgrows
    refine Or.inl ⟨Outcome.mem_of_mem_frame hmark nofun nofun,
      (World.leadsTo_replay _ x.leaving).registry.trans hgrows, fun hc => hwrong ?_⟩
    exact hc.part [.entered f a] x.leaving (by simp) h.endsWithin_frame
  refused hwrong := by cases List.mem_singleton.mp hwrong.1

/-- **What becomes of a class that is marked**: its construction is completed, or it fails,
and so does what has set it going, unless code has chained to it. -/
theorem Course.completed_or_failing (h : Course t w es x) (hx : x ≠ .exhausted) (hw : w.Sound)
    (hgrows : (w.replay es).registry.GrowsTo r) (hmark : .constructorMarked o k ∈ es) :
    Completed r o k w es ∨ Failing (ConstructionFails o k) o t w es x := by
  by_cases hcompleted : Completed r o k w es
  · exact Or.inl hcompleted
  · exact Or.inr (h.failing traced_unfinished hx hw ⟨hmark, hgrows, hcompleted⟩)

/-- A task that has succeeded has not failed itself. -/
theorem Failing.handled_or_gone {S : World → List Event → Prop}
    (h : Failing S o t w es (.value ())) : Handled (FailsOnward o S) t w es (.value ()) ∨
      w.objects.created < o.number ∧ o.number ≤ (w.replay es).objects.created ∧
        (w.replay es).objects.get? o = none := by
  cases h with
  | handled h => exact Or.inl h
  | own hx =>
    obtain ⟨e, hx⟩ := hx
    cases hx
  | gone hnew ho hgone => exact Or.inr ⟨hnew, ho, hgone⟩

/-- **What becomes of a heritage** when an object without marks is constructed: each class
is marked and constructed, but for those that are inherited by one whose construction has
failed where code has chained to it, and by that one. -/
theorem Course.completed_heritage {opts : EngineOptions} {cls : ClassId}
    (h : Course (.construct o cls) w es (.value ())) (hw : w.Sound)
    (ho : o.number ≤ w.objects.created)
    (hfresh : ∀ ob, w.objects.get? o = some ob → ob.constructed = [])
    (hr : r.Built opts) (hgrows : (w.replay es).registry.GrowsTo r) (hk : r.IsA cls k) :
    Completed r o k w es ∨ ∃ d, r.IsA cls d ∧ r.IsA d k ∧
      IsCaught (FailsOnward o (ConstructionFails o d)) w es := by
  have hmarked {j : ClassId} (hj : HasMark o j w es) : Completed r o j w es ∨
      IsCaught (FailsOnward o (ConstructionFails o j)) w es := by
    have hmark : .constructorMarked o j ∈ es := by
      refine hj.resolve_left ?_
      rintro ⟨ob, hob, hbefore⟩
      rw [Object.isConstructed, hfresh ob hob] at hbefore
      cases hbefore
    refine (h.completed_or_failing Outcome.value_ne_exhausted hw hgrows hmark).imp_right ?_
    intro hfailing
    refine (hfailing.handled_or_gone.resolve_right fun hgone => ?_).isCaught trivial
    exact absurd ho (Nat.not_le_of_lt hgone.1)
  exact hr.holds_or_stops hk (hmarked (h.hasMark_of_construct hw)) fun d s hs hd =>
    hmarked (hd.supers s hs)

end

end ObjectDispatch
