import ObjectDispatch.Proofs.AccessNames
import ObjectDispatch.Proofs.Creation

/-!
# How objects cease to live

An object that has come to life ceases to live in one of two ways: by a deletion of
it, or because its own creation fails.  Its creation has begun before any code can
know of it, so what runs while it lives can remove it only by a deletion.

A deletion whose destructors fail leaves the object alive, and a creation that
succeeds leaves it alive, in either case unless a further deletion of the object has
begun in between and has gone through.  A creation that fails leaves nothing behind.

## Main definitions

* `DeletedWithin` — a deletion of an object begins and then the object is removed.
* `Task.Spares` — a task that removes an object only by deleting it.
* `World.Alive` — an object lives in a class, under a name.

## Main results

* `Course.deletedWithin_of_removed` — what removes an object is a deletion of it.
* `object_of_failed_deletion` — **an object whose deletion fails lives on under its
  name, unless another deletion of it has gone through.**
* `object_of_creation` — **what a creation leaves behind, when it succeeds and when it
  fails.**
-/

namespace ObjectDispatch

/-- A deletion of the object begins, and later the object ceases to live. -/
def DeletedWithin (o : ObjectId) (es : List Event) : Prop :=
  ∃ before after, es = before ++ .deletionBegun o :: after ∧ .objectRemoved o ∈ after

section

variable {o : ObjectId} {w : World} {es fs : List Event} {t t' : Task}

theorem DeletedWithin.append_left (h : DeletedWithin o es) (fs : List Event) :
    DeletedWithin o (es ++ fs) := by
  obtain ⟨before, after, rfl, hmem⟩ := h
  exact ⟨before, after ++ fs, by simp, List.mem_append_left fs hmem⟩

theorem DeletedWithin.append_right (h : DeletedWithin o fs) (es : List Event) :
    DeletedWithin o (es ++ fs) := by
  obtain ⟨before, after, rfl, hmem⟩ := h
  exact ⟨es ++ before, after, by simp, hmem⟩

theorem DeletedWithin.cons (h : DeletedWithin o es) (e : Event) : DeletedWithin o (e :: es) :=
  h.append_right [e]

/-- A list of events in which a deletion of the object begins only before them. -/
theorem not_deletedWithin (h : .deletionBegun o ∉ es) : ¬ DeletedWithin o es := by
  rintro ⟨before, after, rfl, -⟩
  exact h (List.mem_append_right before List.mem_cons_self)

/-! ### What removes an object -/

/-- The task removes the object, if at all, by a deletion that is yet to begin. -/
def Task.Spares (o : ObjectId) : Task → Prop
  | .building _ t => t.Spares o
  | .seq t next => t.Spares o ∧ next.Spares o
  | .guarded t u => t.Spares o ∧ u ≠ .remove o
  | .remove o' => o' ≠ o
  | _ => True

theorem Task.spares_all {ts : List Task} (h : ∀ t ∈ ts, t.Spares o) : (Task.all ts).Spares o :=
  Task.all_of_forall trivial And.intro h

theorem Task.spares_construct (o' : ObjectId) (ks : List ClassId) :
    (Task.all (ks.map (.construct o'))).Spares o :=
  Task.spares_all (by simp [Task.Spares])

theorem Task.spares_destruct (o' : ObjectId) (ks : List ClassId) :
    (Task.all (ks.map (.destruct o'))).Spares o :=
  Task.spares_all (by simp [Task.Spares])

theorem World.Available.spares (ht : w.Available t) : t.Spares o := by
  cases ht <;> trivial

/-- A task that spares the object begins with a deletion of it or goes on sparing
it.  An object that is created has a number of its own. -/
theorem Task.Begins.spares {evs : List Event} (h : t.Begins w evs t')
    (ho : o.number ≤ w.objects.created) (ht : t.Spares o) :
    evs = [.deletionBegun o] ∨ t'.Spares o ∧ .objectRemoved o ∉ evs := by
  cases h with
  | create =>
    -- the object to be removed, should the construction fail, is the new one
    have hnew : w.objects.nextId ≠ o := by
      rintro rfl
      exact Nat.not_succ_le_self _ ho
    refine Or.inr ⟨⟨⟨trivial, ?_⟩, trivial⟩, fun hmem => ?_⟩
    · rintro ⟨⟩
      exact hnew rfl
    · rcases List.mem_cons.mp hmem with hmem | hmem
      · cases hmem
      · obtain ⟨_, _, hassigned⟩ := Registry.exists_of_mem_initialValues hmem
        cases hassigned
  | @delete o' ob c =>
    by_cases hsame : o' = o
    · exact Or.inl (by rw [hsame])
    · exact Or.inr ⟨⟨Task.spares_destruct o' c.heritage, hsame⟩, by simp⟩
  | @remove o' =>
    refine Or.inr ⟨trivial, fun hmem => ?_⟩
    cases Undo.eq_event_of_mem hmem
    exact ht rfl
  | constructSupers => exact Or.inr ⟨Task.spares_construct _ _, by simp⟩
  | @constructor o' f ob c =>
    refine Or.inr ⟨⟨?_, Task.spares_construct _ _, trivial⟩, by simp⟩
    unfold MemberFunction.initialization
    cases f.initializer <;> trivial
  | destruct => exact Or.inr ⟨⟨trivial, nofun⟩, by simp⟩
  | @assign o' v y ob =>
    refine Or.inr ⟨?_, by simp⟩
    unfold Variable.hooking
    cases v.hook with
    | none => trivial
    | some code => exact ⟨⟨trivial, nofun⟩, trivial⟩
  | constructed | constructOwn | constructorBegun | destructNone | destructed
  | destructorBegun => exact Or.inr ⟨trivial, List.not_mem_nil⟩
  | destructOnward => exact Or.inr ⟨trivial, by simp⟩
  | chain honward =>
    refine Or.inr ⟨?_, by simp⟩
    cases t' with
    | «constructor» | destructOnward => trivial
    | _ => exact honward.elim

/-- **What removes an object is a deletion of it**, in the course of any task that
spares it.  The induction is on the course; a deletion of the object is where the
course splits. -/
theorem Course.deletedWithin_of_removed {x : Outcome Unit} (h : Course t w es x)
    (ho : o.number ≤ w.objects.created) (ht : t.Spares o) (hmem : .objectRemoved o ∈ es) :
    DeletedWithin o es := by
  have hlater {v : World} {gs : List Event} (hv : o.number ≤ v.objects.created) :
      o.number ≤ (v.replay gs).objects.created :=
    Nat.le_trans hv (v.leadsTo_replay gs).created
  induction h with
  | cut | done | gone | notCreated | idle => cases hmem
  | @begins t t' w evs es x h _ ih =>
    rcases h.spares ho ht with rfl | ⟨ht', hnot⟩
    · -- the rest of the course is this deletion
      rcases List.mem_append.mp hmem with hmem | hmem
      · cases List.mem_singleton.mp hmem
      · exact ⟨[], es, rfl, hmem⟩
    · exact (ih (hlater ho) ht' ((List.mem_append.mp hmem).resolve_left hnot)).append_right evs
  | refused => cases List.mem_singleton.mp hmem
  | @frame w f a es x _ _ ih =>
    have hinner := Outcome.mem_of_mem_frame hmem (by simp) (by simp)
    exact ((ih ho trivial hinner).append_left _).cons _
  | @building o' t w es x _ ih =>
    have hinner := Outcome.mem_of_mem_building hmem (by simp) (by simp)
    exact ((ih ho ht hinner).append_left _).cons _
  | @seq t next w es fs x _ _ ih ih' =>
    rcases List.mem_append.mp hmem with hmem | hmem
    · exact (ih ho ht.1 hmem).append_left fs
    · exact (ih' (hlater ho) ht.2 hmem).append_right es
  | @andThen w es fs x _ _ ih ih' =>
    rcases List.mem_append.mp hmem with hmem | hmem
    · exact (ih ho ht hmem).append_left fs
    · exact (ih' (hlater ho) ht hmem).append_right es
  | seqStop _ _ ih | guarded _ _ ih => exact ih ho ht.1 hmem
  | @undone t u w es e e' _ ih =>
    rcases List.mem_append.mp hmem with hmem | hmem
    · exact (ih ho ht.1 hmem).append_left _
    · -- what is undone is not this object's coming to life
      have hevent := Undo.eq_event_of_mem hmem
      cases u with
      | remove o' =>
        cases hevent
        exact (ht.2 rfl).elim
      | forget => cases hevent
      | restore _ _ v => cases v <;> cases hevent
  | plain _ hplain =>
    rw [← List.mem_singleton.mp hmem] at hplain
    exact hplain.elim
  | task ht' _ ih => exact ih ho ht'.spares hmem
  | ends _ _ _ ih => exact ih ho ht hmem

end

/-! ### Objects that live on -/

/-- The object lives in the class, and the name means it. -/
structure World.Alive (w : World) (o : ObjectId) (name : String) (cls : ClassId) : Prop where
  exists_get? : ∃ ob, w.objects.get? o = some ob ∧ ob.name = name ∧ ob.cls = cls
  findObject? : w.findObject? name = some o

section

variable {o : ObjectId} {w : World} {es : List Event} {ob : Object}

theorem ObjectTable.Named.alive (hnamed : w.objects.Named) (hob : w.objects.get? o = some ob) :
    w.Alive o ob.name ob.cls :=
  ⟨⟨ob, hob, rfl, rfl⟩, hnamed.find?_name o ob hob⟩

/-- An object that is not removed is alive as it was. -/
theorem World.alive_replay (hw : w.Sound) (hnamed : w.objects.Named) (hes : w.AdmitsAll es)
    (hob : w.objects.get? o = some ob) (hmem : .objectRemoved o ∉ es) :
    (w.replay es).Alive o ob.name ob.cls := by
  obtain ⟨ob', hob', hname, hcls⟩ := World.exists_get?_replay hob hmem
  rw [← hname, ← hcls]
  exact (World.named_replay hw hnamed hes).alive hob'

/-- A deletion that fails has failed at one of the destructors. -/
theorem Course.exists_of_failed_deletion {e : DispatchError}
    (h : Course (.delete o) w es (.failure e)) (hob : w.objects.get? o = some ob) :
    ∃ (c : Class) (rest : List Event), es = .deletionBegun o :: rest ∧
      Course (.all (c.heritage.map (.destruct o))) w rest (.failure e) := by
  rcases h.cases_of_delete with ⟨-, hx | ⟨-, hdead⟩⟩ | ⟨_, c, rest, -, -, rfl, hseq⟩
  · cases hx
  · rw [hob] at hdead
    cases hdead
  · refine ⟨c, rest, rfl, ?_⟩
    rcases hseq.cases_of_seq with ⟨hdestructors, -⟩ | ⟨_, _, rfl, -, hremove⟩
    · exact hdestructors
    · -- removing the object cannot fail
      rcases hremove.cases_of_remove with ⟨-, hx⟩ | ⟨-, hx | hx⟩ <;> cases hx

/-- **An object whose deletion fails lives on**, under its name and in its class, at
every moment of every session; or else a further deletion of it has begun in the
meantime and has gone through. -/
theorem object_of_failed_deletion {opts : EngineOptions} (hw : Session.Reachable opts w)
    (hob : w.objects.get? o = some ob) {loads frames : Nat} {e : DispatchError} {s : State}
    (hrun : deleteObject (enterFrame (runCode loads frames)) o { world := w } =
      (.failure e, s)) :
    ∃ rest, s.journal.reverse = .deletionBegun o :: rest ∧
      (s.world.Alive o ob.name ob.cls ∨ DeletedWithin o rest) := by
  have hsound := hw.sound
  have hperforms := deleteObject_performs (s := { world := w })
    (conforms_evaluationLaw.runCode loads frames) hsound o
  obtain ⟨hcourse, hworld⟩ := hperforms.journal
  rw [hrun] at hcourse hworld
  dsimp only at hcourse hworld
  have hdelete : Course (.delete o) w s.journal.reverse (.failure e) := hcourse
  obtain ⟨c, rest, hes, hdestructors⟩ := hdelete.exists_of_failed_deletion hob
  refine ⟨rest, hes, ?_⟩
  by_cases hmem : .objectRemoved o ∈ rest
  · exact Or.inr (hdestructors.deletedWithin_of_removed (hsound.allocated o ob hob)
      (Task.spares_destruct o c.heritage) hmem)
  · refine Or.inl ?_
    rw [hworld]
    refine World.alive_replay hsound hw.named hdelete.admitsAll hob fun hremoved => hmem ?_
    rw [hes] at hremoved
    exact (List.mem_cons.mp hremoved).resolve_left nofun

end

/-- Defines a class whose destructor has the given body, a class that inherits from it
and whose destructor chains to that one, whatever comes of it, and then fails, and a
class without a destructor; and creates an object of each of the last two. -/
def failing (body : Expr) : Expr :=
  .sequence [
    .defineClass { name := "Base", members := [.dtor body] },
    .defineClass
      { name := "Derived", inherits := ["Base"]
        members :=
          [.dtor (.sequence [.guarded (.chain []), .raise .script (.const (.str "kept"))])] },
    .defineClass { name := "Other" },
    .create (some (.const (.str "Derived"))) (.const (.str "d")) [],
    .create (some (.const (.str "Other"))) (.const (.str "x")) []]

/-- The world with the two objects. -/
def failingWorld (body : Expr) : World :=
  (Session.step 0 (World.initial {}) (failing body)).2.world

theorem failingWorld_reachable (body : Expr)
    (hend : (Session.step 0 (World.initial {}) (failing body)).1 ≠ .exhausted) :
    Session.Reachable {} (failingWorld body) :=
  Session.Between.reachable (.next (failing body) .start hend)

/-- The deletion of the first object. -/
def failingRun (body : Expr) : Outcome Unit × State :=
  deleteObject (enterFrame (runCode 0 3)) ⟨1⟩ { world := failingWorld body }

/-- The deletion fails, and the object is there before it. -/
theorem exists_failingRun (body : Expr) (hfails : (failingRun body).1.isFailure = true)
    (hobject : ((failingWorld body).objects.get? ⟨1⟩).map (fun ob => (ob.name, ob.cls)) =
      some ("d", ⟨1⟩)) :
    ∃ e ob, deleteObject (enterFrame (runCode 0 3)) ⟨1⟩ { world := failingWorld body } =
        (.failure e, (failingRun body).2) ∧
      (failingWorld body).objects.get? ⟨1⟩ = some ob ∧ ob.name = "d" ∧ ob.cls = ⟨1⟩ := by
  obtain ⟨e, he⟩ := Outcome.exists_of_isFailure hfails
  obtain ⟨ob, hob, heq⟩ := Option.map_eq_some_iff.mp hobject
  obtain ⟨hname, hcls⟩ := Prod.mk.inj heq
  exact ⟨e, ob, Prod.ext he rfl, hob, hname, hcls⟩

/-- The body of a destructor that deletes the other object. -/
def deletesOther : Expr := .delete (some (.const (.str "x")))

/-- The body of a destructor that deletes the object that is being deleted. -/
def deletesItself : Expr := .delete none

/-- An object whose destructor has deleted another object and then fails lives on. -/
theorem object_of_failing_destructor :
    (failingRun deletesOther).2.world.Alive ⟨1⟩ "d" ⟨1⟩ ∧
      (failingRun deletesOther).2.world.objects.size = 1 := by
  obtain ⟨e, ob, hrun, hob, hname, hcls⟩ := exists_failingRun deletesOther (by decide +kernel)
    (by decide +kernel)
  obtain ⟨rest, hes, hor⟩ := object_of_failed_deletion
    (failingWorld_reachable deletesOther (by decide +kernel)) hob hrun
  have hnone : ((failingRun deletesOther).2.journal.reverse.tail).all
      (fun e => match e with | .deletionBegun o => o ≠ ⟨1⟩ | _ => true) = true := by
    decide +kernel
  rw [hname, hcls] at hor
  refine ⟨hor.resolve_right (not_deletedWithin fun hmem => ?_), by decide +kernel⟩
  rw [hes] at hnone
  simpa using List.all_eq_true.mp hnone _ hmem

/-- **A deletion can fail and the object be gone**: its destructor has deleted it
once more, which passes over the destructors that have begun, and then fails. -/
theorem exists_dead_object_of_failed_deletion :
    ¬ ∀ (opts : EngineOptions) (w : World), Session.Reachable opts w →
      ∀ (loads frames : Nat) (o : ObjectId) (ob : Object) (e : DispatchError) (s : State),
        w.objects.get? o = some ob →
        deleteObject (enterFrame (runCode loads frames)) o { world := w } = (.failure e, s) →
        s.world.Alive o ob.name ob.cls := by
  intro h
  obtain ⟨e, ob, hrun, hob, -, -⟩ := exists_failingRun deletesItself (by decide +kernel)
    (by decide +kernel)
  obtain ⟨⟨ob', hob', -⟩, -⟩ := h {} (failingWorld deletesItself)
    (failingWorld_reachable deletesItself (by decide +kernel)) 0 3 ⟨1⟩ ob e _ hob hrun
  have hdead : ((failingRun deletesItself).2.world.objects.get? ⟨1⟩).isNone = true := by
    decide +kernel
  rw [hob'] at hdead
  cases hdead

/-! ### What a creation leaves behind -/

section

variable {cls : ClassId} {name : String} {w : World} {es : List Event}

/-- A creation that succeeds leaves the object alive, or a deletion of it has gone
through on the way. -/
theorem Course.alive_of_create (h : Course (.create cls name) w es (.value ())) (hw : w.Sound)
    (hnamed : w.objects.Named) :
    (w.replay es).Alive w.objects.nextId name cls ∨ DeletedWithin w.objects.nextId es := by
  have hadmitted := h.admitsAll
  obtain ⟨c, es', hc, hconstruct, rfl⟩ := h.exists_of_create
  by_cases hmem : .objectRemoved w.objects.nextId ∈ es'
  · -- only a deletion can have removed it while it was constructed
    have hcreated : w.objects.nextId.number ≤ (w.prepared cls name c).objects.created :=
      (World.leadsTo_replay (w.after (.objectCreated name cls)) _).created
    have hdeleted := hconstruct.deletedWithin_of_removed hcreated trivial hmem
    exact Or.inr (((hdeleted.append_right _).append_left _).cons _)
  · refine Or.inl ?_
    have hborn : (w.after (.objectCreated name cls)).objects.get? w.objects.nextId =
        some { id := w.objects.nextId, name, cls } := by
      rw [World.get?_after_objectCreated, hw.get?_nextId, Option.none_or]
    refine World.alive_replay (hw.after hadmitted.1) (World.named_after hw hnamed hadmitted.1)
      hadmitted.2 hborn fun hremoved => ?_
    unfold Registry.preparation at hremoved
    simp only [List.mem_append, List.mem_singleton, reduceCtorEq, or_false] at hremoved
    rcases hremoved with hremoved | hremoved
    · obtain ⟨_, _, hassigned⟩ := Registry.exists_of_mem_initialValues hremoved
      cases hassigned
    · exact hmem hremoved

/-- **What a creation leaves behind**, at every moment of every session.  When it
succeeds the object lives under the name and in the class, unless a deletion of it has
begun on the way and has gone through; when it fails there is no such object, and the
name does not mean it. -/
theorem object_of_creation {opts : EngineOptions} (hw : Session.Reachable opts w)
    {loads frames : Nat} {args : List Value} {out : Outcome ObjectId} {s : State}
    (hrun : createObject (enterFrame (runCode loads frames)) cls name args { world := w } =
      (out, s)) :
    (∀ id, out = .value id →
      s.world.Alive id name cls ∨ DeletedWithin id s.journal.reverse) ∧
    (∀ e, out = .failure e → s.world.objects.get? w.objects.nextId = none ∧
      s.world.findObject? name ≠ some w.objects.nextId) := by
  have hsound := hw.sound
  have hperforms := createObject_performs (s := { world := w })
    (conforms_evaluationLaw.runCode loads frames) hsound cls name args
  obtain ⟨hcourse, hworld⟩ := hperforms.journal
  rw [hrun] at hcourse hworld
  dsimp only at hcourse hworld
  have hcreate : Course (.create cls name) w s.journal.reverse out.ending := hcourse
  refine ⟨fun id hvalue => ?_, fun e hfailure => ?_⟩
  · subst hvalue
    rw [eq_nextId_of_createObject hrun, hworld]
    exact hcreate.alive_of_create hsound hw.named
  · subst hfailure
    have hdead : s.world.objects.get? w.objects.nextId = none := by
      rw [hworld]
      exact hcreate.get?_of_failed_create hsound
    refine ⟨hdead, fun hmeant => ?_⟩
    -- a name means live objects only
    have hnamed : s.world.objects.Named := by
      rw [hworld]
      exact World.named_replay hsound hw.named hcreate.admitsAll
    obtain ⟨ob, hob, -⟩ := hnamed.exists_get? name _ hmeant
    rw [hdead] at hob
    cases hob

end

/-- Defines a class whose constructor has the given body. -/
def boxes (body : Expr) : Expr := .defineClass { name := "Box", members := [.ctor none body] }

/-- The world with the class. -/
def boxesWorld (body : Expr) : World := (Session.step 0 (World.initial {}) (boxes body)).2.world

theorem boxesWorld_reachable (body : Expr)
    (hend : (Session.step 0 (World.initial {}) (boxes body)).1 ≠ .exhausted) :
    Session.Reachable {} (boxesWorld body) :=
  Session.Between.reachable (.next (boxes body) .start hend)

/-- The creation of an object of the class. -/
def boxRun (body : Expr) : Outcome ObjectId × State :=
  createObject (enterFrame (runCode 0 2)) ⟨0⟩ "b" [] { world := boxesWorld body }

/-- The body of a constructor that succeeds. -/
def logsBox : Expr := .log (.const (.str "box"))

/-- The body of a constructor that fails. -/
def raisesBox : Expr := .raise .script (.const (.str "no box"))

/-- The constructor that succeeds leaves an object, and the one that fails does not. -/
theorem object_of_box :
    (boxRun logsBox).2.world.Alive ⟨1⟩ "b" ⟨0⟩ ∧
      (boxRun raisesBox).2.world.objects.get? ⟨1⟩ = none := by
  have hlogs := (object_of_creation (boxesWorld_reachable logsBox (by decide +kernel))
    (show boxRun logsBox = (_, _) from rfl)).1 ⟨1⟩ (by decide +kernel)
  obtain ⟨e, hfails⟩ : ∃ e, (boxRun raisesBox).1 = .failure e :=
    Outcome.exists_of_isFailure (by decide +kernel)
  have hraises := (object_of_creation (boxesWorld_reachable raisesBox (by decide +kernel))
    (show boxRun raisesBox = (_, _) from rfl)).2 e hfails
  have hnone : ((boxRun logsBox).2.journal).all
      (fun e => match e with | .deletionBegun _ => false | _ => true) = true := by
    decide +kernel
  refine ⟨hlogs.resolve_right (not_deletedWithin fun hmem => ?_), ?_⟩
  · cases List.all_eq_true.mp hnone _ (List.mem_reverse.mp hmem)
  · have hnext : (boxesWorld raisesBox).objects.nextId = ⟨1⟩ := by decide +kernel
    rw [← hnext]
    exact hraises.1

/-- **A creation can succeed and the object be gone**: its constructor has deleted it. -/
theorem exists_dead_object_of_creation :
    ¬ ∀ (opts : EngineOptions) (w : World), Session.Reachable opts w →
      ∀ (loads frames : Nat) (cls : ClassId) (name : String) (args : List Value)
        (id : ObjectId) (s : State),
        createObject (enterFrame (runCode loads frames)) cls name args { world := w } =
          (.value id, s) →
        s.world.Alive id name cls := by
  intro h
  have hvalue : (boxRun deletesItself).1 = .value ⟨1⟩ := by decide +kernel
  obtain ⟨⟨ob, hob, -⟩, -⟩ := h {} (boxesWorld deletesItself)
    (boxesWorld_reachable deletesItself (by decide +kernel)) 0 2 ⟨0⟩ "b" [] ⟨1⟩
    (boxRun deletesItself).2 (Prod.ext hvalue rfl)
  have hdead : ((boxRun deletesItself).2.world.objects.get? ⟨1⟩).isNone = true := by
    decide +kernel
  rw [hob] at hdead
  cases hdead

end ObjectDispatch
