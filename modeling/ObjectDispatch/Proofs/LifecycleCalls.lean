import ObjectDispatch.Proofs.DestructorRuns
import ObjectDispatch.Proofs.Introspection
import ObjectDispatch.Proofs.Starts

/-!
# Constructors and destructors are not called

The names of a class do not mean its constructor or its destructor, so no call by a name
starts them.  Chaining does, and so do the creation and the deletion of objects, but each
of them marks the class first, and only where it has no mark.  The marks of constructors
stay, and those of destructors stay until a deletion of the object fails.

A function that is called `constructor` or `destructor` but was not declared as one is run
by creations and deletions all the same.  Names do mean it, though, and chaining to it asks
for no mark.

## Main definitions

* `Event.Runs` — the body of a function starts on an object.
* `World.AllowsDestructor` — destructors are marked, and start right after that.

## Main results

* `Course.each_allowsDestructor` — destructors in a course.
* `Session.Stretch.forgotten_of_restart` — what lies between two runs of a destructor.
* `lifecycle_functions_of_session` — **what starts constructors and destructors.**
-/

namespace ObjectDispatch

/-- The body of the function starts on the object. -/
def Event.Runs (fn : MemberFunction) (o : ObjectId) : Event → Prop
  | .entered f (.body g) => g = fn ∧ f.object = some o
  | _ => False

theorem Event.Runs.exists_frame {fn : MemberFunction} {o : ObjectId} {e : Event}
    (h : e.Runs fn o) : ∃ f, e = .entered f (.body fn) ∧ f.object = some o := by
  cases e with
  | entered f a =>
    cases a with
    | body g =>
      obtain ⟨rfl, hobject⟩ := h
      exact ⟨f, rfl, hobject⟩
    | _ => exact h.elim
  | _ => exact h.elim

/-! ### Constructors -/

/-- A part of a constructor starts at most once for an object in a session. -/
theorem Session.countP_starts_le_one (loads : Nat) (opts : EngineOptions) (steps : List Expr)
    (p : ConstructorPart) (k : ClassId) (o : ObjectId) :
    (history loads (World.initial opts) steps).countP (·.starts p k o) ≤ 1 := by
  obtain ⟨x, hcourse⟩ := history_course (World.sound_initial opts) loads steps
  exact Nat.le_trans (hcourse.starts_le_marks (World.sound_initial opts))
    (hcourse.marks_le_one (World.sound_initial opts))

section

variable {opts : EngineOptions} {o : ObjectId} {k : ClassId} {fn : MemberFunction} {w : World}
variable {t t' : Task} {past evs es mid : List Event} {e e' : Event} {x : Outcome Unit}

/-- No constructor starts a second time for an object. -/
theorem Session.Stretch.not_isConstructor_of_restart (h : Stretch opts w (e :: (mid ++ [e'])))
    (he : e.Runs fn o) (he' : e'.Runs fn o) : fn.flags.isConstructor = false := by
  rw [← Bool.not_eq_true]
  intro hctor
  have hstarts {e : Event} (he : e.Runs fn o) : e.starts .body fn.owner o = true := by
    obtain ⟨f, rfl, hobject⟩ := he.exists_frame
    simp [Event.starts, hobject, Activity.part?, hctor]
  obtain ⟨loads, steps, before, after, hes, -⟩ := h
  have honce := countP_starts_le_one loads opts steps .body fn.owner o
  rw [hes] at honce
  simp only [List.countP_append, List.countP_cons, hstarts he, hstarts he', List.countP_nil,
    if_true] at honce
  omega

/-! ### Destructors -/

/-- A destructor that starts on an object has been marked right before, and a mark is set
where there is none. -/
structure World.AllowsDestructor (w : World) (past : List Event) (e : Event) : Prop where
  announced : ∀ f g, e = .entered f (.body g) → g.flags.isDestructor = true →
    ∀ o, f.object = some o → past.getLast? = some (.destructorMarked o g.owner)
  fresh : ∀ o k, e = .destructorMarked o k →
    ∃ ob, w.objects.get? o = some ob ∧ ob.isDestructed k = false

/-- The destructors that the task starts at once, and it starts no others later on its
own. -/
def Task.StartsOnly (P : ObjectId → ClassId → Prop) : Task → Prop
  | .frame f a => ∀ g, a.destructor? = some g → ∀ o, f.object = some o → P o g.owner
  | .guarded t _ => t.StartsOnly P
  | .building _ t => t.StartsOnly fun _ _ => False
  | .seq t next => (t.StartsOnly fun _ _ => False) ∧ next.StartsOnly fun _ _ => False
  | _ => True

variable {P : ObjectId → ClassId → Prop}

theorem Task.StartsOnly.imp {Q : ObjectId → ClassId → Prop} (h : t.StartsOnly P)
    (hPQ : ∀ o k, P o k → Q o k) : t.StartsOnly Q := by
  induction t with
  | frame f a => exact fun g hg o ho => hPQ o g.owner (h g hg o ho)
  | guarded t u ih => exact ih h
  | building | seq => exact h
  | _ => trivial

/-- What starts no destructor at once starts allowed ones only. -/
theorem Task.StartsOnly.weaken (h : t.StartsOnly fun _ _ => False) : t.StartsOnly P :=
  h.imp fun _ _ => False.elim

theorem Task.startsOnly_all {ts : List Task} (h : ∀ t ∈ ts, t.StartsOnly fun _ _ => False) :
    (Task.all ts).StartsOnly P :=
  Task.StartsOnly.weaken (Task.all_of_forall trivial And.intro h)

/-- A body that is no destructor's starts no destructor. -/
theorem Task.startsOnly_body {f : Frame} (hfn : fn.flags.isDestructor = false) :
    (Task.frame f (.body fn)).StartsOnly P := by
  intro g hg
  rw [Activity.destructor?_body_eq_none hfn] at hg
  cases hg

/-- Running code starts no destructor on an object before it is marked. -/
theorem World.Available.startsOnly (ht : w.Available t) (hw : w.Sound) : t.StartsOnly P := by
  cases ht with
  | method _ hc hf _ => exact Task.startsOnly_body (hw.built.resolveFunction?_spec hc hf).2.1
  | procedure hc hf _ _ => exact Task.startsOnly_body (hw.built.resolveFunction?_spec hc hf).2.1
  | scope =>
    intro g hg
    cases hg
  | @onward g f _ _ _ hdtor =>
    rcases hdtor with hdtor | hnone
    · exact Task.startsOnly_body hdtor
    · intro _ _ o hobject
      simp [MemberFunction.callFrame, hnone] at hobject
  | _ => trivial

/-- The mark of a destructor is the last thing before it starts. -/
theorem Task.Begins.startsOnly (h : t.Begins w evs t') (hw : w.Sound) :
    t'.StartsOnly fun o k => evs.getLast? = some (.destructorMarked o k) := by
  have hbody {f g : MemberFunction} (hg : (Activity.body f).destructor? = some g) : g = f := by
    rw [Activity.destructor?, Option.ite_none_right_eq_some] at hg
    exact (Option.some.inj hg.2).symm
  cases h with
  | create => exact Task.startsOnly_all (by simp [Task.StartsOnly])
  | constructSupers => exact Task.startsOnly_all (by simp [Task.StartsOnly])
  | @constructor o f ob c _ _ hc hf =>
    refine ⟨?_, Task.startsOnly_all (by simp [Task.StartsOnly]), ?_⟩
    · unfold MemberFunction.initialization
      cases f.initializer with
      | none => trivial
      | some code =>
        intro g hg
        cases hg
    · exact Task.startsOnly_body (hw.built.isDestructor_of_constructor hc hf)
  | delete => exact ⟨Task.startsOnly_all (by simp [Task.StartsOnly]), trivial⟩
  | @destruct o k ob c f _ _ hc hf =>
    intro g hg o' hobject
    cases hbody hg
    cases hobject
    rw [(hw.built.function?_spec hc hf).1]
    rfl
  | @destructOnward o f =>
    -- a common destructor runs on no object, and no mark is asked for
    intro g hg o' hobject
    cases hbody hg
    simp only [MemberFunction.callFrame] at hobject
    split at hobject
    · cases hobject
    · cases hobject
      rfl
  | chain honward =>
    cases t' with
    | «constructor» | destructOnward => trivial
    | _ => exact honward.elim
  | assign =>
    unfold Variable.hooking
    split
    · trivial
    · refine ⟨?_, trivial⟩
      intro g hg
      cases hg
  | _ => trivial

/-- What neither starts a body nor marks a destructor is allowed. -/
theorem World.allowsDestructor_of_ne (hentered : ∀ f a, e ≠ .entered f a)
    (hmark : ∀ o k, e ≠ .destructorMarked o k) : w.AllowsDestructor past e where
  announced f g h := absurd h (hentered f (.body g))
  fresh o k h := absurd h (hmark o k)

theorem World.allowsDestructor_marked {ob : Object} (hob : w.objects.get? o = some ob)
    (hk : ob.isDestructed k = false) : w.AllowsDestructor past (.destructorMarked o k) where
  announced f g hentered := by cases hentered
  fresh o' k' h := by
    cases h
    exact ⟨ob, hob, hk⟩

/-- What a task begins with marks destructors that have no mark. -/
theorem Task.Begins.each_allowsDestructor (h : t.Begins w evs t') :
    w.EachSince World.AllowsDestructor past evs := by
  by_cases hmark : ∃ o k, .destructorMarked o k ∈ evs
  · obtain ⟨o, k, hmark⟩ := hmark
    obtain ⟨rfl, ob, hob, hk, -⟩ := h.of_mem_destructorMarked hmark
    exact ⟨World.allowsDestructor_marked hob hk, trivial⟩
  · refine World.eachSince_of_forall fun e he _ _ => World.allowsDestructor_of_ne
      (h.isQuiet e he).ne_entered fun o k hmarked => hmark ?_
    exact ⟨o, k, hmarked ▸ he⟩

/-- The mark that is set is the last event before the destructor starts, and a task that
has another one to do first starts no destructor at once. -/
theorem Task.observes_allowsDestructor : Task.Observes
    (fun _ past t => t.StartsOnly fun o k => past.getLast? = some (.destructorMarked o k))
    World.AllowsDestructor where
  incidental he := World.allowsDestructor_of_ne he.ne_entered he.ne_destructorMarked
  begins hw _ h := by
    refine ⟨h.each_allowsDestructor, (h.startsOnly hw).imp fun o k hlast => ?_⟩
    rw [List.getLast?_append, hlast, Option.some_or]
  entered ht :=
    { announced := fun f g hentered hdtor o hobject => by
        cases hentered
        exact ht g (by simp [Activity.destructor?, hdtor]) o hobject
      fresh := nofun }
  building ht := Task.StartsOnly.weaken ht
  seq ht := ⟨ht.1.weaken, fun _ => ht.2.weaken⟩
  guarded ht := ht
  code _ _ := trivial
  available hw havailable := havailable.startsOnly hw

/-- **Destructors in a course** are marked where they have no mark, and start right after
that. -/
theorem Course.each_allowsDestructor (h : Course t w es x) (hw : w.Sound)
    (ht : t.StartsOnly fun o k => past.getLast? = some (.destructorMarked o k)) :
    w.EachSince World.AllowsDestructor past es :=
  h.eachSince Task.observes_allowsDestructor hw ht

/-! ### The marks of destructors -/

/-- The destructor of the class counts as begun for the object, should that be alive; it
was made already. -/
def World.Destructed (w : World) (k : ClassId) (o : ObjectId) : Prop :=
  o.number ≤ w.objects.created ∧
    ∀ ob, w.objects.get? o = some ob → ob.isDestructed k = true

theorem World.Destructed.after (h : w.Destructed k o) (he : e ≠ .destructorsForgotten o) :
    (w.after e).Destructed k o := by
  refine ⟨Nat.le_trans h.1 (World.created_le_after w e), fun ob' hob' => ?_⟩
  rcases World.isDestructed_after hob' with ⟨ob, hob, hmarks⟩ | ⟨hforgotten | hdead, -⟩
  · exact (hmarks k).mpr (Or.inl (h.2 ob hob))
  · exact absurd hforgotten he
  · -- an object that is gone does not come back
    obtain ⟨ob, hob, -⟩ := (w.leadsTo_after e).objects o ob' h.1 hob'
    rw [hdead] at hob
    cases hob

theorem World.Destructed.replay (h : w.Destructed k o) (hes : .destructorsForgotten o ∉ es) :
    (w.replay es).Destructed k o := by
  induction es generalizing w with
  | nil => exact h
  | cons e es ih =>
    rw [List.mem_cons, not_or] at hes
    exact ih (h.after (Ne.symm hes.1)) hes.2

theorem World.destructed_of_marked (hw : w.Sound) {ob : Object}
    (hob : w.objects.get? o = some ob) : (w.after (.destructorMarked o k)).Destructed k o := by
  refine ⟨hw.allocated o ob hob, fun ob' hob' => ?_⟩
  obtain ⟨ob, -, hmarks⟩ := World.exists_of_destructorMarked hob'
  exact (hmarks k).mpr (Or.inr rfl)

/-- **Between two runs of a destructor on an object** a deletion of the object has failed:
the mark of the first run is gone when the second one is marked. -/
theorem Session.Stretch.forgotten_of_restart (h : Stretch opts w (e :: (mid ++ [e'])))
    (he : e.Runs fn o) (he' : e'.Runs fn o) (hdtor : fn.flags.isDestructor = true) :
    .destructorsForgotten o ∈ mid := by
  obtain ⟨f, rfl, hobject⟩ := he.exists_frame
  obtain ⟨f', rfl, hobject'⟩ := he'.exists_frame
  obtain ⟨loads, steps, before, after, hes, rfl⟩ := h
  have hinitial := World.sound_initial opts
  obtain ⟨x, hcourse⟩ := history_course hinitial loads steps
  have hall : (World.initial opts).EachSince World.AllowsDestructor []
      (history loads (World.initial opts) steps) := hcourse.each_allowsDestructor hinitial trivial
  have hadmitted := hcourse.admitsAll
  rw [hes] at hall hadmitted
  rw [World.eachSince_append, World.eachSince_append] at hall
  obtain ⟨⟨hbefore, hfirst, hrest⟩, -⟩ := hall
  rw [World.eachSince_append] at hrest
  obtain ⟨hmid, hsecond, -⟩ := hrest
  -- both runs are marked right before they start
  obtain ⟨before', rfl⟩ := List.getLast?_eq_some_iff.mp
    (hfirst.announced f fn rfl hdtor o hobject)
  have hlast := hsecond.announced f' fn rfl hdtor o hobject'
  obtain ⟨mid', rfl⟩ : ∃ mid', mid = mid' ++ [.destructorMarked o fn.owner] := by
    rw [List.getLast?_append, Option.or_eq_some_iff] at hlast
    rcases hlast with hlast | ⟨-, hlast⟩
    · exact List.getLast?_eq_some_iff.mp hlast
    · simp at hlast
  rw [World.eachSince_append] at hbefore hmid
  obtain ⟨ob, hob, -⟩ := hbefore.2.1.fresh o fn.owner rfl
  obtain ⟨ob', hob', hunmarked⟩ := hmid.2.1.fresh o fn.owner rfl
  by_contra hnone
  rw [List.mem_append, not_or] at hnone
  rw [World.admitsAll_append, World.admitsAll_append, World.admitsAll_append] at hadmitted
  have hmarked : ((World.initial opts).replay
      (before' ++ [.destructorMarked o fn.owner])).Destructed fn.owner o := by
    rw [World.replay_append]
    exact World.destructed_of_marked (hinitial.replay hadmitted.1.1.1) hob
  have hstill := (hmarked.after (e := .entered f (.body fn)) nofun).replay hnone.1
  rw [hstill.2 ob' hob'] at hunmarked
  cases hunmarked

end

/-! ### Runs that are told by owner and name -/

section

variable {opts : EngineOptions} {w : World} {o : ObjectId} {e e' : Event} {mid : List Event}

/-- What starts is what its owner has under its name, and so it is told by the two of them;
a destructor to which another one has chained, which runs under its full name, is left
aside. -/
theorem Session.Stretch.function?_of_entered {f : Frame} {fn : MemberFunction}
    (h : Stretch opts w [.entered f (.body fn)])
    (hdirect : fn.flags.isDestructor = false ∨ f.member ≠ some fn.fullName) :
    ∃ c, w.registry.get? fn.owner = some c ∧ c.function? fn.name = some fn := by
  have hr : w.registry.Built opts := h.reachable.options_eq ▸ h.sound.built
  have hcalled {id : ClassId} {c : Class} {n : String} (hc : w.registry.get? id = some c)
      (hfn : callable c n w = .ok fn) :
      ∃ c, w.registry.get? fn.owner = some c ∧ c.function? fn.name = some fn := by
    obtain ⟨-, d, hd, hmem, -⟩ := Class.resolveFunction?_owner hr hc (callable_eq_ok_iff.mp hfn).1
    exact ⟨d, hd, (hr.formed hd).functions.get?_eq_some_iff.mpr ⟨hmem, rfl⟩⟩
  have hfound {k : ClassId} {c : Class} {n : String} (hc : w.registry.get? k = some c)
      (hfn : c.function? n = some fn) :
      ∃ c, w.registry.get? fn.owner = some c ∧ c.function? fn.name = some fn := by
    obtain ⟨rfl, rfl, -⟩ := hr.function?_spec hc hfn
    exact ⟨c, hc, hfn⟩
  -- a function starts by a call, as part of a lifecycle, or as a destructor chained to
  rcases h.exists_call with ⟨call, hcall⟩ | ⟨o, ⟨k, c, n, -, hc, hfn, -⟩ | ⟨hdtor, rfl⟩⟩
  · cases call with
    | method o n =>
      obtain ⟨-, c, hc, hfn, -⟩ := Call.starts_method_iff.mp hcall
      obtain ⟨ob, -, hc⟩ := World.classOf_eq_ok_iff.mp hc
      exact hcalled hc hfn
    | procedure id n =>
      obtain ⟨-, c, hc, hfn, -⟩ := Call.starts_procedure_iff.mp hcall
      exact hcalled (World.classAt_eq_ok_iff.mp hc) hfn
    | onward =>
      obtain ⟨-, g, -, htarget, -⟩ := Call.starts_onward_iff.mp hcall
      obtain ⟨_, m, _, k, d, _, _, _, _, _, _, hd, hfn⟩ := World.exists_of_chainTarget htarget
      exact hfound hd hfn
  · exact hfound hc hfn
  · rw [hdtor] at hdirect
    exact absurd rfl (hdirect.resolve_left nofun)

/-- The owner, the name and the flags of the function that starts on the object. -/
def Event.run? (o : ObjectId) : Event → Option (ClassId × String × FunctionFlags)
  | .entered f (.body g) =>
      if f.object = some o ∧ (g.flags.isDestructor = false ∨ f.member ≠ some g.fullName) then
        some (g.owner, g.name, g.flags)
      else none
  | _ => none

theorem Event.run?_eq_some_iff {k : ClassId} {n : String} {flags : FunctionFlags} :
    e.run? o = some (k, n, flags) ↔ ∃ f g, e = .entered f (.body g) ∧ f.object = some o ∧
      (g.flags.isDestructor = false ∨ f.member ≠ some g.fullName) ∧
      g.owner = k ∧ g.name = n ∧ g.flags = flags := by
  constructor
  · intro h
    cases e with
    | entered f a =>
      cases a with
      | body g =>
        rw [Event.run?, Option.ite_none_right_eq_some] at h
        obtain ⟨⟨hobject, hdirect⟩, h⟩ := h
        cases h
        exact ⟨f, g, rfl, hobject, hdirect, rfl, rfl, rfl⟩
      | _ => cases h
    | _ => cases h
  · rintro ⟨f, g, rfl, hobject, hdirect, rfl, rfl, rfl⟩
    rw [Event.run?, if_pos ⟨hobject, hdirect⟩]

/-- Two runs on an object of functions of one owner and one name are of one function. -/
theorem Session.Stretch.exists_restart {k : ClassId} {n : String} {flags : FunctionFlags}
    (h : Stretch opts w (e :: (mid ++ [e']))) (he : e.run? o = some (k, n, flags))
    (he' : e'.run? o = some (k, n, flags)) :
    ∃ c fn, w.registry.get? k = some c ∧ c.function? n = some fn ∧ fn.flags = flags ∧
      e.Runs fn o ∧ e'.Runs fn o := by
  obtain ⟨f, fn, rfl, hobject, hdirect, rfl, rfl, rfl⟩ := Event.run?_eq_some_iff.mp he
  obtain ⟨f', g, rfl, hobject', hdirect', howner, hname, -⟩ := Event.run?_eq_some_iff.mp he'
  rw [← List.singleton_append] at h
  have hrest := h.split.2.split.2
  obtain ⟨c, hc, hfn⟩ := h.split.1.function?_of_entered hdirect
  obtain ⟨d, hd, hg⟩ := hrest.function?_of_entered hdirect'
  rw [howner, ← World.replay_append] at hd
  rw [hname] at hg
  cases ((w.leadsTo_replay _).registry.get? hc).symm.trans hd
  cases hfn.symm.trans hg
  exact ⟨c, fn, hc, hfn, rfl, ⟨rfl, hobject⟩, ⟨rfl, hobject'⟩⟩

/-- So it is with the first and with the last of some events of a history. -/
theorem Session.exists_restart_of_history {loads : Nat} {steps : List Expr} {i j : Nat}
    {es : List Event} (k : ClassId) (n : String) (flags : FunctionFlags) (o : ObjectId)
    (hes : es = ((history loads (World.initial opts) steps).drop i).take j)
    (hw : w = (World.initial opts).replay ((history loads (World.initial opts) steps).take i))
    (hfirst : es.head?.bind (·.run? o) = some (k, n, flags))
    (hlast : es.tail.getLast?.bind (·.run? o) = some (k, n, flags)) :
    ∃ c fn e e', Stretch opts w (e :: (es.tail.dropLast ++ [e'])) ∧ w.registry.get? k = some c ∧
      c.function? n = some fn ∧ fn.flags = flags ∧ e.Runs fn o ∧ e'.Runs fn o := by
  obtain ⟨e, hhead, he⟩ := Option.bind_eq_some_iff.mp hfirst
  obtain ⟨e', hget, he'⟩ := Option.bind_eq_some_iff.mp hlast
  have hstretch : Stretch opts w (e :: (es.tail.dropLast ++ [e'])) := by
    rw [List.dropLast_append_getLast? e' hget, ← List.eq_cons_of_mem_head? hhead, hes, hw]
    exact stretch_of_history opts loads steps i j
  obtain ⟨c, fn, hfound⟩ := hstretch.exists_restart he he'
  exact ⟨c, fn, e, e', hstretch, hfound⟩

end

/-- No call by a name starts a function that was declared as a constructor or as a
destructor. -/
theorem Call.eq_onward_of_isLifecycle {opts : EngineOptions} {w : World} {call : Call} {f : Frame}
    {fn : MemberFunction} (hr : w.registry.Built opts) (hdeclared : fn.isLifecycle = true)
    (h : call.Starts w f fn) : call = .onward := by
  have hcalled {id : ClassId} {c : Class} {n : String} (hc : w.registry.get? id = some c)
      (hfn : callable c n w = .ok fn) : fn.isLifecycle = false := by
    obtain ⟨hctor, hdtor, -⟩ := hr.resolveFunction?_spec hc (callable_eq_ok_iff.mp hfn).1
    rw [MemberFunction.isLifecycle, hctor, hdtor]
    rfl
  rw [← Bool.not_eq_false] at hdeclared
  cases call with
  | method o n =>
    obtain ⟨-, c, hc, hfn, -⟩ := Call.starts_method_iff.mp h
    obtain ⟨ob, -, hc⟩ := World.classOf_eq_ok_iff.mp hc
    exact absurd (hcalled hc hfn) hdeclared
  | procedure id n =>
    obtain ⟨-, c, hc, hfn, -⟩ := Call.starts_procedure_iff.mp h
    exact absurd (hcalled (World.classAt_eq_ok_iff.mp hc) hfn) hdeclared
  | onward => rfl

/-- **What starts constructors and destructors** that were declared as such.  At no moment
of a session does a call by a name start one, whoever calls, under whatever name and on
whatever object or class.  In no part of a session does a constructor start a second time
on an object, by chaining or in any other way; a destructor does so only after a deletion
of the object has failed. -/
theorem lifecycle_functions_of_session {opts : EngineOptions} {w : World}
    (hw : Session.Reachable opts w) {fn : MemberFunction} (hdeclared : fn.isLifecycle = true) :
    (∀ (call : Call) (f : Frame), call.Starts w f fn → call = .onward) ∧
    ∀ (o : ObjectId) (e e' : Event) (mid : List Event),
      Session.Stretch opts w (e :: (mid ++ [e'])) → e.Runs fn o → e'.Runs fn o →
      fn.flags.isDestructor = true ∧ .destructorsForgotten o ∈ mid := by
  have hr : w.registry.Built opts := hw.options_eq ▸ hw.sound.built
  refine ⟨fun call f => Call.eq_onward_of_isLifecycle hr hdeclared, fun o e e' mid h he he' => ?_⟩
  have hctor := h.not_isConstructor_of_restart he he'
  have hdtor : fn.flags.isDestructor = true := by
    rw [MemberFunction.isLifecycle, hctor, Bool.false_or] at hdeclared
    exact hdeclared
  exact ⟨hdtor, h.forgotten_of_restart he he' hdtor⟩

/-- Defines a class whose destructor fails, creates an object of it and deletes it twice. -/
def tents : List Expr :=
  [.defineClass { name := "Tent", members := [.dtor (.raise .script (.const (.str "torn")))] },
    .create (some (.const (.str "Tent"))) (.const (.str "t")) [],
    .delete (some (.const (.str "t"))), .delete (some (.const (.str "t")))]

/-- The world in which the destructor starts. -/
def tentsWorld : World :=
  (World.initial {}).replay ((Session.history 0 (World.initial {}) tents).take 7)

/-- What happens from there until it starts again. -/
def tentsEvents : List Event := ((Session.history 0 (World.initial {}) tents).drop 7).take 6

/-- The destructor starts a second time, in the second deletion. -/
theorem lifecycle_functions_of_tents :
    ∃ c fn, tentsWorld.registry.get? ⟨0⟩ = some c ∧ c.function? destructorName = some fn ∧
      (∀ (call : Call) (f : Frame), call.Starts tentsWorld f fn → call = .onward) ∧
      .destructorsForgotten ⟨1⟩ ∈ tentsEvents := by
  obtain ⟨c, fn, e, e', hstretch, hc, hfn, hflags, he, he'⟩ :=
    Session.exists_restart_of_history ⟨0⟩ destructorName { isDestructor := true } ⟨1⟩
      (rfl : tentsEvents = _) rfl (by decide +kernel) (by decide +kernel)
  have hdeclared : fn.isLifecycle = true := by
    rw [MemberFunction.isLifecycle, hflags]
    rfl
  obtain ⟨hcalls, hruns⟩ := lifecycle_functions_of_session hstretch.reachable hdeclared
  refine ⟨c, fn, hc, hfn, hcalls, ?_⟩
  exact List.mem_of_mem_tail (List.mem_of_mem_dropLast (hruns ⟨1⟩ e e' _ hstretch he he').2)

/-- Defines a class with a method that is called as a constructor is, and one that inherits
from it and whose constructor chains, and creates an object of the second. -/
def pavilion : Expr :=
  .sequence [
    .defineClass
      { name := "Ground"
        members := [.method constructorName .pub (.log (.const (.str "ground")))] },
    .defineClass
      { name := "Pavilion", inherits := ["Ground"], members := [.ctor none (.chain [])] },
    .create (some (.const (.str "Pavilion"))) (.const (.str "p")) []]

/-- The world in which the method starts as a constructor. -/
def pavilionWorld : World :=
  (World.initial {}).replay ((Session.history 0 (World.initial {}) [pavilion]).take 6)

/-- What happens from there until it starts again. -/
def pavilionEvents : List Event :=
  ((Session.history 0 (World.initial {}) [pavilion]).drop 6).take 6

/-- The construction of an object ends. -/
def Event.endsConstruction : Event → Bool
  | .constructionEnded _ => true
  | _ => false

/-- **A method can be run as a constructor**, and then a second time in one construction, by
chaining. -/
theorem exists_constructor_run_twice :
    ¬ ∀ (opts : EngineOptions) (w : World) (k : ClassId) (c : Class) (fn : MemberFunction),
      w.registry.get? k = some c → c.function? constructorName = some fn →
      ∀ (o : ObjectId) (e e' : Event) (mid : List Event),
        Session.Stretch opts w (e :: (mid ++ [e'])) → e.Runs fn o → e'.Runs fn o →
        .constructionEnded o ∈ mid := by
  intro h
  obtain ⟨c, fn, e, e', hstretch, hc, hfn, -, he, he'⟩ :=
    Session.exists_restart_of_history ⟨0⟩ constructorName {} ⟨1⟩ (rfl : pavilionEvents = _) rfl
      (by decide +kernel) (by decide +kernel)
  have hended := h {} pavilionWorld ⟨0⟩ c fn hc hfn ⟨1⟩ e e' _ hstretch he he'
  have hunended : pavilionEvents.all (!·.endsConstruction) = true := by decide +kernel
  cases List.all_eq_true.mp hunended _ (List.mem_of_mem_tail (List.mem_of_mem_dropLast hended))

end ObjectDispatch
