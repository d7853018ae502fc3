import ObjectDispatch.Proofs.Calls
import ObjectDispatch.Proofs.Moments

/-!
# Where bodies start

Whenever the body of a function starts in a session, running code has called the
function, or gone on to it by chaining, or the body runs as a constructor or as a
destructor of some object.  What running code takes up is known from the course of the
session, and so is what a task goes on with.

## Main definitions

* `MemberFunction.InLifecycle` — a body runs as a constructor or as a destructor.
* `Task.InLifecycle` — a task that starts bodies in no other way.

## Main results

* `Course.each_start` — every start in a course.
* `Session.Stretch.exists_call` — **whenever a body starts in a session, a call starts
  it, or it runs as a constructor or as a destructor.**
-/

namespace ObjectDispatch

/-- In the frame `f` the function runs as a constructor or as a destructor of some
object, because that is its name in a registered class, or because another destructor
chains to it. -/
def MemberFunction.InLifecycle (fn : MemberFunction) (r : Registry) (f : Frame) : Prop :=
  ∃ o, (∃ k c n, (n = constructorName ∨ n = destructorName) ∧ r.get? k = some c ∧
      c.function? n = some fn ∧ f = fn.callFrame (some o) n) ∨
    fn.flags.isDestructor = true ∧ f = fn.callFrame (some o) fn.fullName

/-- The bodies that the task starts run as constructors or as destructors. -/
def Task.InLifecycle (r : Registry) : Task → Prop
  | .frame f (.body fn) => fn.InLifecycle r f
  | .building _ t | .guarded t _ | .chain t => t.InLifecycle r
  | .seq t next => t.InLifecycle r ∧ next.InLifecycle r
  | .destructOnward _ fn => fn.flags = { isDestructor := true }
  | _ => True

section

variable {r r' : Registry} {w : World} {t t' : Task} {evs es : List Event} {x : Outcome Unit}
  {f : Frame} {fn : MemberFunction}

/-- Lifecycle bodies run in the object that they are for. -/
theorem MemberFunction.InLifecycle.isSome_object (h : fn.InLifecycle r f) :
    f.object.isSome := by
  obtain ⟨o, ⟨k, c, n, -, -, -, rfl⟩ | ⟨-, rfl⟩⟩ := h <;> rfl

theorem MemberFunction.InLifecycle.of_growsTo (h : fn.InLifecycle r f) (hgrows : r.GrowsTo r') :
    fn.InLifecycle r' f := by
  obtain ⟨o, ⟨k, c, n, hn, hc, hfn, hf⟩ | h⟩ := h
  · exact ⟨o, Or.inl ⟨k, c, n, hn, hgrows.get? hc, hfn, hf⟩⟩
  · exact ⟨o, Or.inr h⟩

/-! ### Tasks -/

/-- What a task starts later it starts in the registry of that moment. -/
theorem Task.InLifecycle.of_growsTo (h : t.InLifecycle r) (hgrows : r.GrowsTo r') :
    t.InLifecycle r' := by
  induction t with
  | frame f a =>
    cases a with
    | body fn => exact MemberFunction.InLifecycle.of_growsTo h hgrows
    | _ => trivial
  | building o t ih => exact ih h
  | seq t next ih ih' => exact ⟨ih h.1, ih' h.2⟩
  | guarded t u ih => exact ih h
  | chain t ih => exact ih h
  | destructOnward o fn => exact h
  | _ => trivial

theorem Task.inLifecycle_all {ts : List Task} (h : ∀ t ∈ ts, t.InLifecycle r) :
    (Task.all ts).InLifecycle r :=
  Task.all_of_forall trivial And.intro h

theorem MemberFunction.inLifecycle_initialization (fn : MemberFunction) (o : ObjectId) :
    (fn.initialization o).InLifecycle r := by
  unfold MemberFunction.initialization
  cases fn.initializer <;> trivial

theorem Variable.inLifecycle_hooking (v : Variable) (o : ObjectId) (previous : Option Value) :
    (v.hooking o previous).InLifecycle r := by
  unfold Variable.hooking
  cases v.hook with
  | none => trivial
  | some code => exact ⟨trivial, trivial⟩

/-- Apart from frames, running code takes up nothing but what constructors, destructors
and hooks do. -/
theorem World.Available.inLifecycle (ht : w.Available t) (hw : w.Sound) :
    (∃ f a, t = .frame f a) ∨ t.InLifecycle w.registry := by
  cases ht with
  | method | procedure | scope | onward => exact Or.inl ⟨_, _, rfl⟩
  | constructOnward | create | delete | assign => exact Or.inr trivial
  | destructOnward hg hf _ hdtor _ =>
    obtain ⟨-, m, -, k, d, -, -, -, -, -, -, hd, hfd⟩ := World.exists_of_chainTarget hf
    obtain ⟨-, -, howned⟩ := hw.built.function?_spec hd hfd
    exact Or.inr (howned.flags_of_destructor hdtor)

/-- So does what such a task goes on with. -/
theorem Task.Begins.inLifecycle (h : t.Begins w evs t') (ht : t.InLifecycle w.registry) :
    t'.InLifecycle (w.replay evs).registry := by
  cases h with
  | create => exact ⟨trivial, trivial⟩
  | constructed | constructOwn | constructorBegun | destructNone | destructed | destructorBegun
  | remove => trivial
  | constructSupers => exact Task.inLifecycle_all (by simp [Task.InLifecycle])
  | @constructor o fn _ c _ _ hc hfn =>
    refine ⟨fn.inLifecycle_initialization o, Task.inLifecycle_all (by simp [Task.InLifecycle]), ?_⟩
    exact ⟨o, Or.inl ⟨fn.owner, c, constructorName, Or.inl rfl, hc, hfn, rfl⟩⟩
  | delete => exact ⟨Task.inLifecycle_all (by simp [Task.InLifecycle]), trivial⟩
  | @destruct o k _ c fn _ _ hc hfn =>
    exact ⟨o, Or.inl ⟨k, c, destructorName, Or.inr rfl, hc, hfn, rfl⟩⟩
  | @destructOnward o fn =>
    have hflags : fn.flags = { isDestructor := true } := ht
    exact ⟨o, Or.inr ⟨by rw [hflags], by rw [hflags]; rfl⟩⟩
  | chain => exact ht
  | assign => exact Variable.inLifecycle_hooking _ _ _

/-! ### Courses -/

/-- The event starts no body, or one that running code can start in the world, or one
that runs as a constructor or as a destructor. -/
def World.AllowsStart (w : World) (e : Event) : Prop :=
  ∀ f fn, e = .entered f (.body fn) →
    w.Available (.frame f (.body fn)) ∨ fn.InLifecycle w.registry f

theorem World.allowsStart_of_ne {e : Event} (he : ∀ f a, e ≠ .entered f a) :
    w.AllowsStart e :=
  fun f fn hentered => absurd hentered (he f (.body fn))

/-- A task that running code can take up, or one that starts bodies in the second way,
goes on in the second way. -/
theorem Task.observes_allowsStart : Task.Observes
    (fun v _ t => v.Available t ∨ t.InLifecycle v.registry) (fun v _ => v.AllowsStart) where
  incidental he := World.allowsStart_of_ne he.ne_entered
  begins hw ht h := by
    have hlifecycle : Task.InLifecycle _ _ := ht.elim (fun ht => (ht.inLifecycle hw).resolve_left
      (by rintro ⟨f, a, rfl⟩; cases h)) id
    refine ⟨World.eachSince_of_forall fun e he _ _ => ?_, Or.inr (h.inLifecycle hlifecycle)⟩
    exact World.allowsStart_of_ne (h.isQuiet e he).ne_entered
  entered ht f fn hentered := by
    cases hentered
    exact ht
  building ht := Or.inr (ht.elim nofun id)
  seq ht := by
    obtain ⟨hfirst, hnext⟩ := ht.resolve_left nofun
    refine ⟨Or.inr hfirst, fun es => Or.inr ?_⟩
    exact hnext.of_growsTo (World.leadsTo_replay _ es).registry
  guarded ht := Or.inr (ht.elim nofun id)
  code _ _ := Or.inr trivial
  available _ havailable := Or.inl havailable

/-- **Every start in a course** is one that running code can make at that moment, or one
of a constructor or a destructor. -/
theorem Course.each_start (h : Course t w es x) (hw : w.Sound)
    (ht : w.Available t ∨ t.InLifecycle w.registry) : w.Each World.AllowsStart es :=
  h.each Task.observes_allowsStart hw ht

/-! ### Calls -/

/-- A start that running code can make, some call makes. -/
theorem World.Available.exists_call (h : w.Available (.frame f (.body fn)))
    (hroom : w.stack.depth < w.stack.limit) : ∃ call : Call, call.Starts w f fn := by
  cases h with
  | @method o ob c n fn hob hc hfn haccess =>
    exact ⟨.method o n, Call.starts_method_iff.mpr
      ⟨hroom, c, World.classOf_eq hob hc, callable_eq_ok_iff.mpr ⟨hfn, haccess⟩, rfl⟩⟩
  | @procedure k c n fn hc hfn haccess hkind =>
    exact ⟨.procedure k n, Call.starts_procedure_iff.mpr
      ⟨hroom, c, World.classAt_eq hc, callable_eq_ok_iff.mpr ⟨hfn, haccess⟩, hkind, rfl⟩⟩
  | @onward g fn hg htarget hctor hdtor =>
    exact ⟨.onward, Call.starts_onward_iff.mpr ⟨hroom, g, hg, htarget, hctor, hdtor, rfl⟩⟩

end

/-- **Whenever a body starts in a session, a call starts it, or it runs as a constructor
or as a destructor.** -/
theorem Session.Stretch.exists_call {o : EngineOptions} {w : World} {f : Frame}
    {fn : MemberFunction} (h : Session.Stretch o w [.entered f (.body fn)]) :
    (∃ call : Call, call.Starts w f fn) ∨ fn.InLifecycle w.registry f := by
  have heach : w.Each World.AllowsStart [.entered f (.body fn)] := h.each fun loads steps => by
    obtain ⟨x, hcourse⟩ := history_course (World.sound_initial o) loads steps
    exact hcourse.each_start (World.sound_initial o) (Or.inr trivial)
  have hroom : w.stack.depth < w.stack.limit := h.admitsAll.1
  exact (heach.1 f fn rfl).imp_left fun havailable => havailable.exists_call hroom

/-- The frame and the function, where a body starts. -/
def Event.start? : Event → Option (Frame × MemberFunction)
  | .entered f (.body fn) => some (f, fn)
  | _ => none

theorem Event.eq_of_start? {e : Event} {f : Frame} {fn : MemberFunction}
    (h : e.start? = some (f, fn)) : e = .entered f (.body fn) := by
  unfold Event.start? at h
  split at h
  · cases h
    rfl
  · cases h

/-- A body that starts at a given moment of a session, and what is to be seen of it. -/
theorem Session.exists_stretch (o : EngineOptions) (loads : Nat) (steps : List Expr) (n : Nat)
    {α : Type} (see : Frame × MemberFunction → α) {a : α}
    (h : (((history loads (World.initial o) steps).drop n).head?.bind Event.start?).map see =
      some a) :
    ∃ f fn, Stretch o ((World.initial o).replay ((history loads (World.initial o) steps).take n))
      [.entered f (.body fn)] ∧ see (f, fn) = a := by
  obtain ⟨⟨f, fn⟩, hstart, hsee⟩ := Option.map_eq_some_iff.mp h
  obtain ⟨e, he, hstart⟩ := Option.bind_eq_some_iff.mp hstart
  obtain rfl := Event.eq_of_start? hstart
  have hstretch := stretch_of_history o loads steps n 1
  rw [List.eq_cons_of_mem_head? he, List.take_succ_cons, List.take_zero] at hstretch
  exact ⟨f, fn, hstretch, hsee⟩

end ObjectDispatch
