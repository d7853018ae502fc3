import ObjectDispatch.Proofs.Targets

/-!
# The course of an evaluation

The events of an evaluation are not in any order.  A frame that is entered is left
again, a construction that begins ends, and between the mark of a constructor and
its body there is the construction of its superclasses.  What the operations of
the language do is written down here as tasks: each task begins with certain
events and goes on as another task, until what is left is to run the code of a
frame; and running code can take up any task that is available in the world at
that moment.

A *course* of a task is a sequence of events that performing the task can consist
of, with the way in which it ends.  It says nothing of expressions: code is free
to do whatever is available, to raise errors and to catch them.  So what holds
of all courses holds of all evaluations, once evaluations are known to follow
courses, and it is shown by induction on a course, rule by rule.

## Main definitions

* `Task`, `Undo` — what is to be done, and what is done after a failure.
* `Task.Begins` — what a task begins with and how it goes on.
* `World.Available` — the tasks that running code can take up.
* `Course` — the events of a task.

## Main results

* `Course.admitsAll` — the events of a course are admitted.
* `Course.keeps` — a course that has ended leaves the frames as they were.
* `Course.each_frames` — the frames below stay where they are.
* `Course.cases_of_seq`, `Course.cases_of_guarded`, `Course.cases_of_frame`,
  `Course.cases_of_delete`, `Course.cases_of_destruct` — what the course of a task
  consists of.
-/

namespace ObjectDispatch

/-! ### Frames -/

/-- The frame in which the body of a function runs. -/
def MemberFunction.callFrame (f : MemberFunction) (object : Option ObjectId) (calledAs : String) :
    Frame :=
  { scope := f.owner, object := object, member := some calledAs, kind := f.frameKind object }

/-- The frame in which the initializer of a constructor runs. -/
def MemberFunction.initializerFrame (f : MemberFunction) (o : ObjectId) : Frame :=
  { scope := f.owner, object := some o, member := some initializerName, kind := .ctor }

/-- The frame in which the hook of a variable runs. -/
def Variable.hookFrame (v : Variable) (o : ObjectId) : Frame :=
  { scope := v.owner, object := some o, member := none, kind := .hook }

/-- The frame of an expression in the scope of a class. -/
def scopeFrame (k : ClassId) (object : Option ObjectId) : Frame :=
  { scope := k, object := object, member := none, kind := .eval }

/-! ### Tasks -/

/-- What is done about an object when a task has failed. -/
inductive Undo where
  /-- The object ceases to live. -/
  | remove (o : ObjectId) : Undo
  /-- No destructor counts as begun any more. -/
  | forget (o : ObjectId) : Undo
  /-- A variable is what it was. -/
  | restore (o : ObjectId) (var : String) (previous : Option Value) : Undo

/-- The object that is meant. -/
def Undo.object : Undo → ObjectId
  | .remove o | .forget o | .restore o _ _ => o

/-- What happens to the object. -/
def Undo.event : Undo → Event
  | .remove o => .objectRemoved o
  | .forget o => .destructorsForgotten o
  | .restore o x (some v) => .assigned o x v
  | .restore o x none => .cleared o x

/-- The object may be gone by then, and nothing happens. -/
def Undo.events (u : Undo) (w : World) : List Event :=
  if (w.objects.get? u.object).isSome then [u.event] else []

/-- What is to be done. -/
inductive Task where
  /-- Nothing more. -/
  | done : Task
  /-- Running code goes on. -/
  | code : Task
  /-- A frame is entered to run something. -/
  | frame (f : Frame) (a : Activity) : Task
  /-- A task while an object is under construction. -/
  | building (o : ObjectId) (t : Task) : Task
  /-- One task and then another. -/
  | seq (t next : Task) : Task
  /-- A task with something to do when it fails. -/
  | guarded (t : Task) (u : Undo) : Task
  /-- An object is created. -/
  | create (cls : ClassId) (name : String) : Task
  /-- A class is constructed for an object. -/
  | construct (o : ObjectId) (k : ClassId) : Task
  /-- A function of a class runs as its constructor. -/
  | constructor (o : ObjectId) (f : MemberFunction) : Task
  /-- An object is deleted. -/
  | delete (o : ObjectId) : Task
  /-- The destructor of a class runs, if there is one. -/
  | destruct (o : ObjectId) (k : ClassId) : Task
  /-- A destructor runs because another one chains to it. -/
  | destructOnward (o : ObjectId) (f : MemberFunction) : Task
  /-- Code chains, and a constructor or a destructor is to run. -/
  | chain (t : Task) : Task
  /-- An object is removed. -/
  | remove (o : ObjectId) : Task
  /-- An option is assigned, and its hook runs. -/
  | assign (o : ObjectId) (v : Variable) (x : Value) : Task

namespace Task

/-- The task is to run a constructor or a destructor, which code can chain to. -/
def IsOnward : Task → Prop
  | .constructor _ _ => True
  | .destructOnward _ f => f.flags.isConstructor = false
  | _ => False

/-- Tasks one after the other. -/
def all (ts : List Task) : Task := ts.foldr .seq .done

/-- The object without which the task fails. -/
def subject? : Task → Option ObjectId
  | .construct o _ | .constructor o _ | .delete o | .destruct o _ | .destructOnward o _
  | .assign o _ _ => some o
  | _ => none

end Task

/-- Running the initializer of a constructor, if it has one. -/
def MemberFunction.initialization (f : MemberFunction) (o : ObjectId) : Task :=
  match f.initializer with
  | none => .done
  | some code => .frame (f.initializerFrame o) (.initializer f code)

/-- Running the hook of a variable, if it has one; when the hook fails, the
variable is what it was. -/
def Variable.hooking (v : Variable) (o : ObjectId) (previous : Option Value) : Task :=
  match v.hook with
  | none => .done
  | some code =>
      .all [.guarded (.frame (v.hookFrame o) (.hook v code)) (.restore o v.fullName previous)]

/-- The assignments that give the variables of a class their initial values. -/
def Class.initialValues (c : Class) (o : ObjectId) : List Event :=
  c.ownVariables.toList.filterMap fun v => v.init.map (.assigned o v.fullName ·)

/-- The assignments that give the variables of classes their initial values. -/
def Registry.initialValues (r : Registry) (o : ObjectId) (ks : List ClassId) : List Event :=
  (ks.filterMap r.get?).flatMap (·.initialValues o)

/-- What a task begins with in the world `w`, and the task that is left then. -/
inductive Task.Begins (w : World) : Task → List Event → Task → Prop
  | create {cls : ClassId} {name : String} {c : Class} (hc : w.registry.get? cls = some c)
      (hfree : w.objects.find? name = none) :
      Begins w (.create cls name)
        (.objectCreated name cls :: w.registry.initialValues w.objects.nextId c.heritage)
        (.all [.guarded (.building w.objects.nextId (.construct w.objects.nextId cls))
          (.remove w.objects.nextId)])
  /-- No class is constructed twice. -/
  | constructed {o : ObjectId} {k : ClassId} {ob : Object} (hob : w.objects.get? o = some ob)
      (hk : ob.isConstructed k = true) : Begins w (.construct o k) [] .done
  | constructOwn {o : ObjectId} {k : ClassId} {ob : Object} {c : Class} {f : MemberFunction}
      (hob : w.objects.get? o = some ob) (hk : ob.isConstructed k = false)
      (hc : w.registry.get? k = some c) (hf : c.function? constructorName = some f) :
      Begins w (.construct o k) [] (.constructor o f)
  | constructSupers {o : ObjectId} {k : ClassId} {ob : Object} {c : Class}
      (hob : w.objects.get? o = some ob) (hk : ob.isConstructed k = false)
      (hc : w.registry.get? k = some c) (hf : c.function? constructorName = none) :
      Begins w (.construct o k) [.constructorMarked o k] (.all (c.supers.map (.construct o)))
  | constructorBegun {o : ObjectId} {f : MemberFunction} {ob : Object}
      (hob : w.objects.get? o = some ob) (hk : ob.isConstructed f.owner = true) :
      Begins w (.constructor o f) [] .done
  /-- The initializer, the superclasses, the body. -/
  | constructor {o : ObjectId} {f : MemberFunction} {ob : Object} {c : Class}
      (hob : w.objects.get? o = some ob) (hk : ob.isConstructed f.owner = false)
      (hc : w.registry.get? f.owner = some c) (hf : c.function? constructorName = some f) :
      Begins w (.constructor o f) [.constructorMarked o f.owner]
        (.seq (f.initialization o)
          (.seq (.all (c.supers.map (.construct o)))
            (.frame (f.callFrame (some o) constructorName) (.body f))))
  | delete {o : ObjectId} {ob : Object} {c : Class} (hob : w.objects.get? o = some ob)
      (hc : w.registry.get? ob.cls = some c) :
      Begins w (.delete o) [.deletionBegun o]
        (.seq (.all (c.heritage.map (.destruct o))) (.remove o))
  | destructNone {o : ObjectId} {k : ClassId} {c : Class} (hc : w.registry.get? k = some c)
      (hf : c.function? destructorName = none) : Begins w (.destruct o k) [] .done
  | destructed {o : ObjectId} {k : ClassId} {ob : Object} (hob : w.objects.get? o = some ob)
      (hk : ob.isDestructed k = true) : Begins w (.destruct o k) [] .done
  | destruct {o : ObjectId} {k : ClassId} {ob : Object} {c : Class} {f : MemberFunction}
      (hob : w.objects.get? o = some ob) (hk : ob.isDestructed k = false)
      (hc : w.registry.get? k = some c) (hf : c.function? destructorName = some f) :
      Begins w (.destruct o k) [.destructorMarked o k]
        (.guarded (.frame (f.callFrame (some o) destructorName) (.body f)) (.forget o))
  | destructorBegun {o : ObjectId} {f : MemberFunction} {ob : Object}
      (hob : w.objects.get? o = some ob) (hk : ob.isDestructed f.owner = true) :
      Begins w (.destructOnward o f) [] .done
  | destructOnward {o : ObjectId} {f : MemberFunction} {ob : Object}
      (hob : w.objects.get? o = some ob) (hk : ob.isDestructed f.owner = false) :
      Begins w (.destructOnward o f) [.destructorMarked o f.owner]
        (.frame (f.callFrame (if f.flags.isCommon then none else some o) f.fullName) (.body f))
  | chain {t : Task} (ht : t.IsOnward) : Begins w (.chain t) [.chained] t
  | remove {o : ObjectId} : Begins w (.remove o) ((Undo.remove o).events w) .done
  | assign {o : ObjectId} {v : Variable} {x : Value} {ob : Object}
      (hob : w.objects.get? o = some ob) :
      Begins w (.assign o v x) [.assigned o v.fullName x] (v.hooking o (ob.value? v.fullName))

/-- What tasks have that are put one after the other, the whole has. -/
theorem Task.all_of_forall {P : Task → Prop} {ts : List Task} (hdone : P .done)
    (hseq : ∀ {t next}, P t → P next → P (.seq t next)) (h : ∀ t ∈ ts, P t) : P (.all ts) := by
  induction ts with
  | nil => exact hdone
  | cons t ts ih =>
    rw [List.forall_mem_cons] at h
    exact hseq h.1 (ih h.2)

/-! ### What running code can do -/

/-- The events that running code can let happen without taking up a task. -/
def Event.IsPlain : Event → Prop
  | .logged _ | .chained | .classRegistered _ | .loaderInstalled _ | .delegateInstalled _
  | .assigned _ _ _ | .cleared _ _ => True
  | _ => False

/-- The object for which a constructor runs when the innermost frame chains to
it. -/
def World.chainObject? (w : World) : Option ObjectId :=
  w.building.head?.or (w.stack.current?.bind (·.object))

/-- The tasks that running code can take up in the world `w`. -/
inductive World.Available (w : World) : Task → Prop
  | method {o : ObjectId} {ob : Object} {c : Class} {n : String} {f : MemberFunction}
      (hob : w.objects.get? o = some ob) (hc : w.registry.get? ob.cls = some c)
      (hf : c.resolveFunction? n = some f)
      (haccess : mayCall (w.stack.current?.map (·.scope)) f c = true) :
      Available w
        (.frame (f.callFrame (if f.flags.isCommon then none else some o) n) (.body f))
  | procedure {k : ClassId} {c : Class} {n : String} {f : MemberFunction}
      (hc : w.registry.get? k = some c) (hf : c.resolveFunction? n = some f)
      (haccess : mayCall (w.stack.current?.map (·.scope)) f c = true)
      (hcommon : f.flags.isCommon = true ∨ f.flags.isBuiltin = true) :
      Available w (.frame (f.callFrame none n) (.body f))
  | scope {k : ClassId} {object : Option ObjectId} {code : Expr}
      (hscope : w.hasScope k object = .ok ()) :
      Available w (.frame (scopeFrame k object) (.scoped code))
  | onward {g : Frame} {f : MemberFunction} (hg : w.stack.current? = some g)
      (hf : chainTarget w = .ok (some f)) (hctor : f.flags.isConstructor = false)
      (hdtor : f.flags.isDestructor = false ∨ g.object = none) :
      Available w
        (.frame (f.callFrame (if f.flags.isCommon then none else g.object) f.fullName) (.body f))
  | constructOnward {o : ObjectId} {f : MemberFunction} (hf : chainTarget w = .ok (some f))
      (hctor : f.flags.isConstructor = true) (ho : w.chainObject? = some o) :
      Available w (.chain (.constructor o f))
  | destructOnward {g : Frame} {o : ObjectId} {f : MemberFunction}
      (hg : w.stack.current? = some g) (hf : chainTarget w = .ok (some f))
      (hctor : f.flags.isConstructor = false) (hdtor : f.flags.isDestructor = true)
      (ho : g.object = some o) : Available w (.chain (.destructOnward o f))
  | create (cls : ClassId) (name : String) : Available w (.create cls name)
  | delete (o : ObjectId) : Available w (.delete o)
  /-- The variable is one of the class of the object, should that live. -/
  | assign {o : ObjectId} {v : Variable} {x : Value} (ho : o.number ≤ w.objects.created)
      (hv : ∀ ob, w.objects.get? o = some ob → ∃ c n e, w.registry.get? ob.cls = some c ∧
        c.resolveVar? n = some e ∧ e.var = v) : Available w (.assign o v x)

/-! ### Courses -/

/-- How a run ends, whatever its value. -/
def Outcome.ending {α : Type} : Outcome α → Outcome Unit
  | .value _ => .value ()
  | .failure e => .failure e
  | .exhausted => .exhausted

theorem Outcome.value_ne_exhausted {α : Type} {a : α} : Outcome.value a ≠ .exhausted := by
  intro h
  cases h

theorem Outcome.failure_ne_exhausted {α : Type} {e : DispatchError} :
    (Outcome.failure e : Outcome α) ≠ .exhausted := by
  intro h
  cases h

/-- The event with which a frame is left; none when the run in it does not end. -/
def Outcome.leaving : Outcome Unit → List Event
  | .value _ => [.left none]
  | .failure e => [.left (some e)]
  | .exhausted => []

/-- The event with which a construction ends; none when the run in it does not
end. -/
def Outcome.closing (o : ObjectId) : Outcome Unit → List Event
  | .exhausted => []
  | _ => [.constructionEnded o]

theorem Outcome.exists_leaving_eq {x : Outcome Unit} (hx : x ≠ .exhausted) :
    ∃ failure, x.leaving = [.left failure] := by
  cases x with
  | value => exact ⟨none, rfl⟩
  | failure e => exact ⟨some e, rfl⟩
  | exhausted => exact absurd rfl hx

theorem Outcome.closing_eq {x : Outcome Unit} (hx : x ≠ .exhausted) (o : ObjectId) :
    x.closing o = [.constructionEnded o] := by
  cases x with
  | exhausted => exact absurd rfl hx
  | _ => rfl

theorem World.replay_leaving {x : Outcome Unit} (hx : x ≠ .exhausted) (w : World) :
    w.replay x.leaving = { w with stack := w.stack.pop } := by
  obtain ⟨failure, hleaving⟩ := Outcome.exists_leaving_eq hx
  rw [hleaving]
  rfl

theorem World.replay_closing {x : Outcome Unit} (hx : x ≠ .exhausted) (w : World)
    (o : ObjectId) : w.replay (x.closing o) = { w with building := w.building.tail } := by
  rw [Outcome.closing_eq hx]
  rfl

theorem Outcome.exists_of_mem_leaving {x : Outcome Unit} {e : Event} (he : e ∈ x.leaving) :
    ∃ failure, e = .left failure := by
  cases x with
  | value => exact ⟨none, List.mem_singleton.mp he⟩
  | failure e' => exact ⟨some e', List.mem_singleton.mp he⟩
  | exhausted => cases he

theorem Outcome.eq_of_mem_closing {x : Outcome Unit} {o : ObjectId} {e : Event}
    (he : e ∈ x.closing o) : e = .constructionEnded o := by
  cases x with
  | exhausted => cases he
  | _ => exact List.mem_singleton.mp he

/-- What happens between entering and leaving a frame happens inside. -/
theorem Outcome.mem_of_mem_frame {x : Outcome Unit} {f : Frame} {a : Activity} {e : Event}
    {es : List Event} (he : e ∈ .entered f a :: (es ++ x.leaving)) (hentered : e ≠ .entered f a)
    (hleft : ∀ failure, e ≠ .left failure) : e ∈ es := by
  have hlater := (List.mem_cons.mp he).resolve_left hentered
  refine (List.mem_append.mp hlater).resolve_right fun hleaving => ?_
  obtain ⟨failure, hfailure⟩ := Outcome.exists_of_mem_leaving hleaving
  exact hleft failure hfailure

/-- What happens between the beginning and the end of a construction happens inside. -/
theorem Outcome.mem_of_mem_building {x : Outcome Unit} {o : ObjectId} {e : Event}
    {es : List Event} (he : e ∈ .constructionBegun o :: (es ++ x.closing o))
    (hbegun : e ≠ .constructionBegun o) (hended : e ≠ .constructionEnded o) : e ∈ es := by
  have hlater := (List.mem_cons.mp he).resolve_left hbegun
  exact (List.mem_append.mp hlater).resolve_right fun h => hended (Outcome.eq_of_mem_closing h)

/-- Performing the task from the world `w` on can consist of these events, ending
in this way. -/
inductive Course : Task → World → List Event → Outcome Unit → Prop
  /-- A run can need more than it was granted at any moment. -/
  | cut (t : Task) (w : World) : Course t w [] .exhausted
  | done (w : World) : Course .done w [] (.value ())
  | gone {t : Task} {w : World} {o : ObjectId} (e : DispatchError) (ht : t.subject? = some o)
      (ho : w.objects.get? o = none) : Course t w [] (.failure e)
  | notCreated (cls : ClassId) (name : String) (w : World) (e : DispatchError) :
      Course (.create cls name) w [] (.failure e)
  | begins {t t' : Task} {w : World} {evs es : List Event} {x : Outcome Unit}
      (h : t.Begins w evs t') (h' : Course t' (w.replay evs) es x) : Course t w (evs ++ es) x
  | refused {w : World} {f : Frame} {a : Activity} (hfull : w.stack.limit ≤ w.stack.depth) :
      Course (.frame f a) w [.refused f a] (.failure (.usage .tooDeep))
  | frame {w : World} {f : Frame} {a : Activity} {es : List Event} {x : Outcome Unit}
      (hroom : w.stack.depth < w.stack.limit)
      (h : Course .code (w.after (.entered f a)) es x) :
      Course (.frame f a) w (.entered f a :: (es ++ x.leaving)) x
  | building {o : ObjectId} {t : Task} {w : World} {es : List Event} {x : Outcome Unit}
      (h : Course t (w.after (.constructionBegun o)) es x) :
      Course (.building o t) w (.constructionBegun o :: (es ++ x.closing o)) x
  | seq {t next : Task} {w : World} {es fs : List Event} {x : Outcome Unit}
      (h : Course t w es (.value ())) (h' : Course next (w.replay es) fs x) :
      Course (.seq t next) w (es ++ fs) x
  | seqStop {t next : Task} {w : World} {es : List Event} {x : Outcome Unit}
      (h : Course t w es x) (hx : x ≠ .value ()) : Course (.seq t next) w es x
  | guarded {t : Task} {u : Undo} {w : World} {es : List Event} {x : Outcome Unit}
      (h : Course t w es x) (hx : ∀ e, x ≠ .failure e) : Course (.guarded t u) w es x
  | undone {t : Task} {u : Undo} {w : World} {es : List Event} {e : DispatchError}
      (e' : DispatchError) (h : Course t w es (.failure e)) :
      Course (.guarded t u) w (es ++ u.events (w.replay es)) (.failure e')
  | idle (w : World) : Course .code w [] (.value ())
  | plain {w : World} {e : Event} (he : w.Admits e) (hplain : e.IsPlain) :
      Course .code w [e] (.value ())
  | task {t : Task} {w : World} {es : List Event} {x : Outcome Unit} (ht : w.Available t)
      (h : Course t w es x) : Course .code w es x
  | andThen {w : World} {es fs : List Event} {x : Outcome Unit}
      (h : Course .code w es (.value ())) (h' : Course .code (w.replay es) fs x) :
      Course .code w (es ++ fs) x
  /-- Code can catch errors and raise errors of its own. -/
  | ends {w : World} {es : List Event} {x y : Outcome Unit} (h : Course .code w es x)
      (hx : x ≠ .exhausted) (hy : y ≠ .exhausted) : Course .code w es y

/-! ### The events of a course -/

section

variable {w : World} {t t' : Task} {evs es : List Event} {x : Outcome Unit}

theorem World.admitsAll_of_isLocal (w : World) {es : List Event} (h : ∀ e ∈ es, e.IsLocal) :
    w.AdmitsAll es := by
  induction es generalizing w with
  | nil => trivial
  | cons e es ih =>
    rw [List.forall_mem_cons] at h
    exact ⟨w.admits_of_isLocal h.1, ih _ h.2⟩

theorem Class.exists_of_mem_initialValues {c : Class} {o : ObjectId} {e : Event}
    (he : e ∈ c.initialValues o) : ∃ y v, e = .assigned o y v := by
  obtain ⟨v, -, he⟩ := List.mem_filterMap.mp he
  obtain ⟨y, -, rfl⟩ := Option.map_eq_some_iff.mp he
  exact ⟨v.fullName, y, rfl⟩

theorem Registry.exists_of_mem_initialValues {r : Registry} {o : ObjectId} {ks : List ClassId}
    {e : Event} (he : e ∈ r.initialValues o ks) : ∃ y v, e = .assigned o y v := by
  obtain ⟨c, -, he⟩ := List.mem_flatMap.mp he
  exact c.exists_of_mem_initialValues he

/-- At most one thing happens when a task has failed. -/
theorem Undo.eq_event_of_mem {u : Undo} {e : Event} (he : e ∈ u.events w) : e = u.event := by
  unfold Undo.events at he
  split at he
  · exact List.mem_singleton.mp he
  · cases he

theorem Undo.isLocal_of_mem_events {u : Undo} {e : Event} (he : e ∈ u.events w) : e.IsLocal := by
  rw [Undo.eq_event_of_mem he]
  cases u with
  | restore o y v => cases v <;> trivial
  | _ => trivial

/-- Only the creation of an object begins with an event that is not local. -/
theorem Task.Begins.isLocal (h : t.Begins w evs t') :
    (∀ e ∈ evs, e.IsLocal) ∨ ∃ cls name es, evs = .objectCreated name cls :: es ∧
      (w.registry.get? cls).isSome ∧ w.objects.find? name = none ∧ ∀ e ∈ es, e.IsLocal := by
  cases h with
  | create hc hfree =>
    refine Or.inr ⟨_, _, _, rfl, by rw [hc]; rfl, hfree, fun e he => ?_⟩
    obtain ⟨y, v, rfl⟩ := Registry.exists_of_mem_initialValues he
    trivial
  | remove => exact Or.inl fun e he => Undo.isLocal_of_mem_events he
  | _ => exact Or.inl (by simp [Event.IsLocal])

theorem Task.Begins.admitsAll (h : t.Begins w evs t') : w.AdmitsAll evs := by
  rcases h.isLocal with hlocal | ⟨cls, name, es, rfl, hcls, hfree, hlocal⟩
  · exact w.admitsAll_of_isLocal hlocal
  · exact ⟨⟨hfree, hcls⟩, World.admitsAll_of_isLocal _ hlocal⟩

/-- The events of a course are admitted. -/
theorem Course.admitsAll (h : Course t w es x) : w.AdmitsAll es := by
  induction h with
  | cut | done | gone | notCreated | idle => trivial
  | begins h _ ih => exact World.admitsAll_append.mpr ⟨h.admitsAll, ih⟩
  | refused => exact ⟨trivial, trivial⟩
  | @frame _ _ _ _ x hroom _ ih =>
    refine ⟨hroom, World.admitsAll_append.mpr ⟨ih, ?_⟩⟩
    cases x <;> simp [Outcome.leaving, World.Admits]
  | @building _ _ _ _ x _ ih =>
    refine ⟨trivial, World.admitsAll_append.mpr ⟨ih, ?_⟩⟩
    cases x <;> simp [Outcome.closing, World.Admits]
  | seq _ _ ih ih' | andThen _ _ ih ih' => exact World.admitsAll_append.mpr ⟨ih, ih'⟩
  | seqStop _ _ ih | guarded _ _ ih | task _ _ ih | ends _ _ _ ih => exact ih
  | undone _ _ ih =>
    exact World.admitsAll_append.mpr
      ⟨ih, World.admitsAll_of_isLocal _ fun e he => Undo.isLocal_of_mem_events he⟩
  | plain he _ => exact ⟨he, trivial⟩

theorem Course.sound (hw : w.Sound) (h : Course t w es x) : (w.replay es).Sound :=
  hw.replay h.admitsAll

/-! ### Frames and constructions -/

/-- The frames are the same, and so are the objects under construction. -/
structure World.SameFrames (w w' : World) : Prop where
  stack : w'.stack = w.stack
  building : w'.building = w.building

theorem World.SameFrames.refl (w : World) : w.SameFrames w := ⟨rfl, rfl⟩

theorem World.SameFrames.trans {w w' w'' : World} (h : w.SameFrames w')
    (h' : w'.SameFrames w'') : w.SameFrames w'' :=
  ⟨h'.stack.trans h.stack, h'.building.trans h.building⟩

theorem World.sameFrames_after (w : World) {e : Event} (he : e.IsLocal) :
    w.SameFrames (w.after e) := by
  cases e <;> first | exact ⟨rfl, rfl⟩ | exact he.elim

theorem World.sameFrames_of_isLocal (w : World) {es : List Event} (h : ∀ e ∈ es, e.IsLocal) :
    w.SameFrames (w.replay es) := by
  induction es generalizing w with
  | nil => exact .refl w
  | cons e es ih =>
    rw [List.forall_mem_cons] at h
    exact (w.sameFrames_after h.1).trans (ih _ h.2)

theorem Task.Begins.keeps (h : t.Begins w evs t') : w.SameFrames (w.replay evs) := by
  rcases h.isLocal with hlocal | ⟨cls, name, es, rfl, -, -, hlocal⟩
  · exact w.sameFrames_of_isLocal hlocal
  · have hcreated : w.SameFrames (w.after (.objectCreated name cls)) := ⟨rfl, rfl⟩
    exact hcreated.trans (World.sameFrames_of_isLocal _ hlocal)

/-- A course that has ended leaves the frames as they were. -/
theorem Course.keeps (h : Course t w es x) (hx : x ≠ .exhausted) : w.SameFrames (w.replay es) := by
  induction h with
  | cut => exact absurd rfl hx
  | done w | gone _ _ _ | notCreated _ _ w | idle w => exact .refl _
  | begins h _ ih =>
    rw [World.replay_append]
    exact h.keeps.trans (ih hx)
  | refused => exact ⟨rfl, rfl⟩
  | @frame w f a es x _ _ ih =>
    -- the frame that is left is the one that was entered
    obtain ⟨hstack, hbuilding⟩ := ih hx
    rw [World.replay_cons, World.replay_append, World.replay_leaving hx]
    exact ⟨congrArg CallStack.pop hstack, hbuilding⟩
  | @building o t w es x _ ih =>
    obtain ⟨hstack, hbuilding⟩ := ih hx
    rw [World.replay_cons, World.replay_append, World.replay_closing hx]
    exact ⟨hstack, congrArg List.tail hbuilding⟩
  | seq _ _ ih ih' | andThen _ _ ih ih' =>
    rw [World.replay_append]
    exact (ih Outcome.value_ne_exhausted).trans (ih' hx)
  | seqStop _ _ ih | guarded _ _ ih | task _ _ ih => exact ih hx
  | ends _ hx' _ ih => exact ih hx'
  | undone _ _ ih =>
    rw [World.replay_append]
    exact (ih Outcome.failure_ne_exhausted).trans
      (World.sameFrames_of_isLocal _ fun e he => Undo.isLocal_of_mem_events he)
  | @plain w e _ hplain =>
    have hstep : w.SameFrames (w.after e) := by
      cases e <;> first | exact ⟨rfl, rfl⟩ | exact hplain.elim
    exact hstep

/-! ### Frames below -/

theorem Task.Begins.sameFrames (h : t.Begins w evs t') :
    ∀ e ∈ evs, ∀ v : World, v.SameFrames (v.after e) := by
  rcases h.isLocal with hlocal | ⟨cls, name, fs, rfl, -, -, hlocal⟩
  · exact fun e he v => v.sameFrames_after (hlocal e he)
  · intro e he v
    rcases List.mem_cons.mp he with rfl | he
    · exact ⟨rfl, rfl⟩
    · exact v.sameFrames_after (hlocal e he)

/-- Where the frames stay the same, what is below them does. -/
theorem World.each_frames_of_sameFrames {base : List Frame} (hw : base <:+ w.stack.frames)
    (hes : ∀ e ∈ es, ∀ v : World, v.SameFrames (v.after e)) :
    w.Each (fun v _ => base <:+ v.stack.frames) es := by
  induction es generalizing w with
  | nil => trivial
  | cons e es ih =>
    rw [List.forall_mem_cons] at hes
    refine ⟨hw, ih ?_ hes.2⟩
    rw [(hes.1 w).stack]
    exact hw

/-- **The frames below stay where they are**, whatever a task does on top of them. -/
theorem Course.each_frames (h : Course t w es x) {base : List Frame}
    (hw : base <:+ w.stack.frames) : w.Each (fun v _ => base <:+ v.stack.frames) es := by
  have hend {t : Task} {v : World} {fs : List Event} {y : Outcome Unit} (h : Course t v fs y)
      (hy : y ≠ .exhausted) (hv : base <:+ v.stack.frames) :
      base <:+ (v.replay fs).stack.frames := by
    rw [(h.keeps hy).stack]
    exact hv
  induction h with
  | cut | done | gone | notCreated | idle => trivial
  | begins h _ ih =>
    refine World.each_append.mpr ⟨World.each_frames_of_sameFrames hw h.sameFrames, ih ?_⟩
    rw [h.keeps.stack]
    exact hw
  | refused | plain => exact ⟨hw, trivial⟩
  | @frame w f a es x _ h ih =>
    have hentered : base <:+ (w.after (.entered f a)).stack.frames :=
      hw.trans (List.suffix_cons f _)
    refine ⟨hw, World.each_append.mpr ⟨ih hentered, ?_⟩⟩
    cases x with
    | exhausted => trivial
    | _ => exact ⟨hend h (by simp) hentered, trivial⟩
  | @building o w _ es x h ih =>
    refine ⟨hw, World.each_append.mpr ⟨ih hw, ?_⟩⟩
    cases x with
    | exhausted => trivial
    | _ => exact ⟨hend h (by simp) hw, trivial⟩
  | seq h _ ih ih' | andThen h _ ih ih' =>
    exact World.each_append.mpr ⟨ih hw, ih' (hend h Outcome.value_ne_exhausted hw)⟩
  | undone e' h ih =>
    refine World.each_append.mpr ⟨ih hw, World.each_frames_of_sameFrames
      (hend h Outcome.failure_ne_exhausted hw) fun e he v => ?_⟩
    exact v.sameFrames_after (Undo.isLocal_of_mem_events he)
  | seqStop _ _ ih | guarded _ _ ih | task _ _ ih | ends _ _ _ ih => exact ih hw

end

section

variable {o : ObjectId} {w : World} {t : Task} {es : List Event} {x : Outcome Unit}

/-! ### The parts of a course -/

theorem Course.cases_of_done (h : Course .done w es x) :
    es = [] ∧ (x = .exhausted ∨ x = .value ()) := by
  cases h with
  | cut => exact ⟨rfl, Or.inl rfl⟩
  | done => exact ⟨rfl, Or.inr rfl⟩
  | gone _ hsubject => cases hsubject
  | begins h => cases h

theorem Course.cases_of_seq {next : Task} (h : Course (.seq t next) w es x) :
    Course t w es x ∧ x ≠ .value () ∨
      ∃ fs gs, es = fs ++ gs ∧ Course t w fs (.value ()) ∧ Course next (w.replay fs) gs x := by
  cases h with
  | cut => exact Or.inl ⟨.cut t w, by simp⟩
  | seq h h' => exact Or.inr ⟨_, _, rfl, h, h'⟩
  | seqStop h hx => exact Or.inl ⟨h, hx⟩
  | gone _ hsubject => cases hsubject
  | begins h => cases h

theorem Course.cases_of_guarded {u : Undo} (h : Course (.guarded t u) w es x) :
    Course t w es x ∧ (∀ e, x ≠ .failure e) ∨
      ∃ fs e e', es = fs ++ u.events (w.replay fs) ∧ x = .failure e' ∧
        Course t w fs (.failure e) := by
  cases h with
  | cut => exact Or.inl ⟨.cut t w, by simp⟩
  | guarded h hx => exact Or.inl ⟨h, hx⟩
  | undone e' h => exact Or.inr ⟨_, _, e', rfl, rfl, h⟩
  | gone _ hsubject => cases hsubject
  | begins h => cases h

theorem Course.cases_of_frame {f : Frame} {a : Activity} (h : Course (.frame f a) w es x) :
    es = [] ∧ x = .exhausted ∨ es = [.refused f a] ∧ x = .failure (.usage .tooDeep) ∨
      ∃ fs, es = .entered f a :: (fs ++ x.leaving) ∧
        Course .code (w.after (.entered f a)) fs x := by
  cases h with
  | cut => exact Or.inl ⟨rfl, rfl⟩
  | refused => exact Or.inr (Or.inl ⟨rfl, rfl⟩)
  | frame _ h => exact Or.inr (Or.inr ⟨_, rfl, h⟩)
  | gone _ hsubject => cases hsubject
  | begins h => cases h

/-- An object is removed if it is still there. -/
theorem Course.cases_of_remove (h : Course (.remove o) w es x) :
    es = [] ∧ x = .exhausted ∨
      es = (Undo.remove o).events w ∧ (x = .exhausted ∨ x = .value ()) := by
  cases h with
  | cut => exact Or.inl ⟨rfl, rfl⟩
  | begins h h' =>
    cases h with
    | remove =>
      obtain ⟨rfl, hx⟩ := h'.cases_of_done
      exact Or.inr ⟨List.append_nil _, hx⟩
  | gone _ hsubject => cases hsubject

/-- **How a class is destructed**: there is nothing to do, or there is no object, or the
destructor begins to count and then it runs. -/
theorem Course.cases_of_destruct {k : ClassId} (h : Course (.destruct o k) w es x) :
    es = [] ∧ (x = .exhausted ∨ (∃ e, x = .failure e) ∧ w.objects.get? o = none ∨
      x = .value () ∧ ((∃ c, w.registry.get? k = some c ∧ c.function? destructorName = none) ∨
        ∃ ob, w.objects.get? o = some ob ∧ ob.isDestructed k = true)) ∨
    ∃ ob c f rest, w.objects.get? o = some ob ∧ ob.isDestructed k = false ∧
      w.registry.get? k = some c ∧ c.function? destructorName = some f ∧
      es = .destructorMarked o k :: rest ∧
      Course (.guarded (.frame (f.callFrame (some o) destructorName) (.body f)) (.forget o))
        (w.after (.destructorMarked o k)) rest x := by
  cases h with
  | cut => exact Or.inl ⟨rfl, Or.inl rfl⟩
  | gone e hsubject hdead =>
    cases hsubject
    exact Or.inl ⟨rfl, Or.inr (Or.inl ⟨⟨e, rfl⟩, hdead⟩)⟩
  | begins h h' =>
    cases h with
    | @destructNone _ _ c hc hf =>
      obtain ⟨rfl, hx⟩ := h'.cases_of_done
      exact Or.inl ⟨rfl, hx.imp_right fun hx => Or.inr ⟨hx, Or.inl ⟨c, hc, hf⟩⟩⟩
    | @destructed _ _ ob hob hk =>
      obtain ⟨rfl, hx⟩ := h'.cases_of_done
      exact Or.inl ⟨rfl, hx.imp_right fun hx => Or.inr ⟨hx, Or.inr ⟨ob, hob, hk⟩⟩⟩
    | @destruct _ _ ob c f hob hk hc hf =>
      exact Or.inr ⟨ob, c, f, _, hob, hk, hc, hf, rfl, h'⟩

/-- **How an object is deleted**: its destructors run, class by class, and then it is
removed. -/
theorem Course.cases_of_delete (h : Course (.delete o) w es x) :
    es = [] ∧ (x = .exhausted ∨ (∃ e, x = .failure e) ∧ w.objects.get? o = none) ∨
    ∃ ob c rest, w.objects.get? o = some ob ∧ w.registry.get? ob.cls = some c ∧
      es = .deletionBegun o :: rest ∧
      Course (.seq (.all (c.heritage.map (.destruct o))) (.remove o)) w rest x := by
  cases h with
  | cut => exact Or.inl ⟨rfl, Or.inl rfl⟩
  | gone e hsubject hdead =>
    cases hsubject
    exact Or.inl ⟨rfl, Or.inr ⟨⟨e, rfl⟩, hdead⟩⟩
  | begins h h' =>
    cases h with
    | @delete _ ob c hob hc => exact Or.inr ⟨ob, c, _, hob, hc, rfl, h'⟩

end

end ObjectDispatch
