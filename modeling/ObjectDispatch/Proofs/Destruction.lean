import ObjectDispatch.Proofs.Deletion

/-!
# The order of destruction

Two drivers run the destructors of an object that is being deleted: the deletion, which
goes through the heritage class by class, and the destructors themselves, each of which
can chain to the next.  Neither runs a destructor that has begun, and what is next after
one that has begun has begun too or is the first that has not.  So the destructors that
have begun are always an initial segment of those of the heritage, however often
destructors chain and whatever errors they catch on the way.

A deletion that succeeds has gone through all of them.  One that fails forgets which
have begun, so that a later deletion starts with the first again.

## Main definitions

* `Registry.destructorsOf` — the destructors of a list of classes.
* `startedDestructors` — the destructors that begin to run on an object.
* `World.HasBegun` — the destructors of an object that have begun.
* `Task.KeepsOrder` — what a task needs to start destructors in order.

## Main results

* `World.next_of_chainTarget` — where a destructor chains to.
* `Course.startedDestructors_initial` — **running code starts destructors in the order
  of the heritage.**
* `destructors_of_deletion` — **what a deletion starts, and what it leaves behind.**
-/

namespace ObjectDispatch

/-! ### Initial segments -/

section

variable {α : Type} {A R S L : List α} {x y : α}

/-- An initial segment that is at least `A` is `A`, or goes on with what is next. -/
theorem eq_or_goes_on (hA : A <+: S) (hS : S <+: A ++ x :: R) : S = A ∨ A ++ [x] <+: S := by
  obtain ⟨T, rfl⟩ := hA
  rw [List.prefix_append_right_inj, List.prefix_cons_iff] at hS
  rcases hS with rfl | ⟨T', rfl, -⟩
  · exact Or.inl (List.append_nil A)
  · exact Or.inr ⟨T', by simp⟩

/-- What is next after a member of an initial segment belongs to it too, or is next
after all of it. -/
theorem next_of_initial (hnodup : (A ++ x :: y :: R).Nodup) (hS : S <+: A ++ x :: y :: R)
    (hx : x ∈ S) : y ∈ S ∨ S ++ [y] <+: A ++ x :: y :: R := by
  have happend : A ++ x :: y :: R = A ++ [x] ++ y :: R := by simp
  rw [happend] at hnodup hS ⊢
  have hwhole : S = A ++ [x] → S ++ [y] <+: A ++ [x] ++ y :: R := by
    rintro rfl
    exact ⟨R, by simp⟩
  rcases List.prefix_or_prefix_of_prefix hS (List.prefix_append (A ++ [x]) (y :: R)) with h | h
  · rcases List.prefix_concat_iff.mp h with rfl | hSA
    · exact Or.inr (hwhole rfl)
    · -- then `x` would come twice
      have hxA : x ∈ A := hSA.subset hx
      simp only [List.nodup_append] at hnodup
      exact absurd rfl (hnodup.1.2.2 x hxA x List.mem_cons_self)
  · rcases eq_or_goes_on h hS with rfl | hy
    · exact Or.inr (hwhole rfl)
    · exact Or.inl (hy.subset (by simp))

end

/-! ### The destructors of a heritage -/

/-- The destructors of the classes, in order; not every class has one. -/
def Registry.destructorsOf (r : Registry) (ks : List ClassId) : List MemberFunction :=
  ks.filterMap fun k => (r.get? k).bind (·.function? destructorName)

namespace Registry

variable {r r' : Registry} {k : ClassId} {ks ks' : List ClassId} {c : Class}
  {f : MemberFunction}

theorem destructorsOf_append :
    r.destructorsOf (ks ++ ks') = r.destructorsOf ks ++ r.destructorsOf ks' :=
  implementations_append

theorem destructorsOf_cons_of_some (hc : r.get? k = some c)
    (hf : c.function? destructorName = some f) :
    r.destructorsOf (k :: ks) = f :: r.destructorsOf ks :=
  implementations_cons_of_some hc hf

theorem destructorsOf_cons_of_none (hc : r.get? k = some c)
    (hf : c.function? destructorName = none) : r.destructorsOf (k :: ks) = r.destructorsOf ks :=
  implementations_cons_of_none hc hf

/-- The destructors of registered classes stay as they are. -/
theorem destructorsOf_of_growsTo (hks : ∀ k ∈ ks, (r.get? k).isSome) (hgrows : r.GrowsTo r') :
    r'.destructorsOf ks = r.destructorsOf ks :=
  implementations_of_growsTo hks hgrows

end Registry

/-! ### Chaining -/

section

variable {o : ObjectId} {w : World} {t t' : Task} {es evs fs : List Event} {x : Outcome Unit}
  {ob : Object} {c : Class} {f : MemberFunction} {L S : List MemberFunction}

/-- **Where a destructor chains to**: the first destructor of the classes that come
after its own in the heritage of its object's class. -/
theorem World.next_of_chainTarget {g : Frame} (hg : w.stack.current? = some g)
    (hobject : g.object = some o) (hob : w.objects.get? o = some ob)
    (hc : w.registry.get? ob.cls = some c) (hchains : g.ChainsToDestructors)
    (hf : chainTarget w = .ok (some f)) :
    ∃ before after, c.heritage = before ++ g.scope :: after ∧
      (w.registry.destructorsOf after).head? = some f := by
  obtain ⟨m, hm, hname⟩ := hchains
  have hclass : w.subjectClass g.scope g.object = .ok c := by
    rw [hobject]
    exact World.classOf_eq hob hc
  unfold chainTarget at hf
  simp only [hg, hm, hname, hclass] at hf
  split at hf
  · cases hf
  · obtain ⟨_, hok, hf⟩ := bind_eq_ok_iff.mp hf
    cases hok
    split at hf
    · cases hf
    · next walk hwalk =>
      obtain ⟨before, hheritage⟩ := Walk.eq_append_of_skipPast hwalk
      exact ⟨before, walk.ahead, hheritage, World.head?_of_firstDefined hf⟩

/-! ### What has begun -/

/-- The object lives, `L` are the destructors of its heritage, and those that have begun
are `S`, in this order. -/
def World.HasBegun (w : World) (o : ObjectId) (L S : List MemberFunction) : Prop :=
  ∃ ob c, w.objects.get? o = some ob ∧ w.registry.get? ob.cls = some c ∧
    w.registry.destructorsOf c.heritage = L ∧ ob.destructed = (S.map (·.owner)).reverse

/-- What counts as begun is the destructor of its class. -/
theorem World.HasBegun.exists_of_isDestructed (hw : w.Sound) (h : w.HasBegun o L S) (hS : S <+: L)
    (hob : w.objects.get? o = some ob) {k : ClassId} (hk : ob.isDestructed k = true) :
    ∃ d ∈ S, ∃ c, w.registry.get? k = some c ∧ c.function? destructorName = some d := by
  obtain ⟨ob', c, hob', hc, rfl, hmarks⟩ := h
  cases hob.symm.trans hob'
  unfold Object.isDestructed at hk
  rw [hmarks, List.contains_iff_mem, List.mem_reverse, List.mem_map] at hk
  obtain ⟨d, hd, rfl⟩ := hk
  exact ⟨d, hd, (hw.built.exists_of_mem_implementations (hS.subset hd)).2⟩

/-- A destructor counts as begun when it is one of those that have. -/
theorem World.HasBegun.isDestructed_iff (hw : w.Sound) (h : w.HasBegun o L S) (hS : S <+: L)
    (hob : w.objects.get? o = some ob) (hf : f ∈ L) :
    ob.isDestructed f.owner = true ↔ f ∈ S := by
  constructor
  · intro hk
    obtain ⟨d, hd, c, hc, hcd⟩ := h.exists_of_isDestructed hw hS hob hk
    -- a class has one destructor
    obtain ⟨ob', c', hob', hc', rfl, -⟩ := h
    obtain ⟨-, i, hi, hif⟩ := hw.built.exists_of_mem_implementations hf
    cases hc.symm.trans hi
    cases hcd.symm.trans hif
    exact hd
  · intro hmem
    obtain ⟨ob', c, hob', -, -, hmarks⟩ := h
    cases hob.symm.trans hob'
    unfold Object.isDestructed
    rw [hmarks, List.contains_iff_mem, List.mem_reverse]
    exact List.mem_map_of_mem hmem

theorem World.HasBegun.nodup (hw : w.Sound) (h : w.HasBegun o L S) : L.Nodup := by
  obtain ⟨ob, c, -, hc, rfl, -⟩ := h
  exact hw.built.nodup_implementations (hw.built.nodup_heritage hc)

/-- A destructor that has begun chains to one that has begun too, or to the next. -/
theorem World.HasBegun.next (hw : w.Sound) (h : w.HasBegun o L S) (hS : S <+: L) {g : Frame}
    (hg : w.stack.current? = some g) (hobject : g.object = some o) (hchains : g.ChainsToDestructors)
    (hscope : ∃ d ∈ S, d.owner = g.scope) (hf : chainTarget w = .ok (some f)) :
    f ∈ S ∨ S ++ [f] <+: L := by
  have hnodup := h.nodup hw
  obtain ⟨ob, c, hob, hc, rfl, -⟩ := h
  obtain ⟨d, hd, howner⟩ := hscope
  obtain ⟨before, after, hheritage, hhead⟩ := next_of_chainTarget hg hobject hob hc hchains hf
  obtain ⟨-, k, hk, hkd⟩ := hw.built.exists_of_mem_implementations (hS.subset hd)
  rw [howner] at hk
  have hwhole : w.registry.destructorsOf c.heritage =
      w.registry.destructorsOf before ++ d :: f :: (w.registry.destructorsOf after).tail := by
    rw [hheritage, Registry.destructorsOf_append, Registry.destructorsOf_cons_of_some hk hkd,
      ← List.eq_cons_of_mem_head? hhead]
  rw [hwhole] at hnodup hS ⊢
  exact next_of_initial hnodup hS hd

/-- The event ends the order of destruction: a further deletion of the object, its end,
or a frame that is refused. -/
def Event.Interrupts (o : ObjectId) : Event → Prop
  | .deletionBegun o' | .objectRemoved o' => o' = o
  | .refused _ _ => True
  | _ => False

theorem World.exists_destructed_replay (hob : w.objects.get? o = some ob)
    (hes : ∀ e ∈ es, ¬ e.TouchesDestructors o) (hstays : ∀ e ∈ es, ¬ e.Interrupts o) :
    ∃ ob', (w.replay es).objects.get? o = some ob' ∧ ob'.destructed = ob.destructed := by
  induction es generalizing w ob with
  | nil => exact ⟨ob, hob, rfl⟩
  | cons e es ih =>
    rw [List.forall_mem_cons] at hes hstays
    have hlives : e ≠ .objectRemoved o := by
      rintro rfl
      exact hstays.1 rfl
    obtain ⟨ob', hob', -⟩ := World.exists_get?_after hob hlives
    obtain ⟨ob'', hob'', hsame⟩ := ih hob' hes.2 hstays.2
    refine ⟨ob'', hob'', hsame.trans ?_⟩
    rcases World.destructed_after hes.1 hob' with ⟨_, hold, -, hdestructed⟩ | ⟨hnone, -⟩
    · cases hob.symm.trans hold
      exact hdestructed
    · rw [hob] at hnone
      cases hnone

/-- Events that leave the destructors of the object alone leave them as they are. -/
theorem World.HasBegun.replay (hw : w.Sound) (h : w.HasBegun o L S)
    (hes : ∀ e ∈ es, ¬ e.TouchesDestructors o) (hstays : ∀ e ∈ es, ¬ e.Interrupts o) :
    (w.replay es).HasBegun o L S := by
  obtain ⟨ob, c, hob, hc, rfl, hmarks⟩ := h
  obtain ⟨ob', hob', hsame⟩ := World.exists_destructed_replay hob hes hstays
  have hleads := w.leadsTo_replay es
  obtain ⟨_, hold, hcls, -⟩ := hleads.objects o ob' (hw.allocated o ob hob) hob'
  cases hob.symm.trans hold
  refine ⟨ob', c, hob', ?_, ?_, hsame.trans hmarks⟩
  · rw [hcls]
    exact hleads.registry.get? hc
  · exact Registry.destructorsOf_of_growsTo (hw.built.isSome_of_mem_heritage hc) hleads.registry

/-- When a destructor is marked it is the latest that has begun. -/
theorem World.HasBegun.marked (h : w.HasBegun o L S) (hob : w.objects.get? o = some ob)
    (hf : ob.isDestructed f.owner = false) :
    (w.after (.destructorMarked o f.owner)).HasBegun o L (S ++ [f]) := by
  obtain ⟨ob', c, hob', hc, rfl, hmarks⟩ := h
  cases hob.symm.trans hob'
  have hget : (w.after (.destructorMarked o f.owner)).objects.get? o =
      some (ob.markDestructed f.owner) := by
    rw [World.get?_after_of_get? (e := .destructorMarked o f.owner) hob nofun,
      Event.change_destructorMarked]
  refine ⟨_, c, hget, hc, rfl, ?_⟩
  show (ob.markDestructed f.owner).destructed = _
  simp [Object.markDestructed, hf, hmarks]

/-! ### What is started -/

/-- The destructor whose body begins to run on the object. -/
def Event.startedDestructor? (o : ObjectId) : Event → Option MemberFunction
  | .entered f a => if f.object = some o then a.destructor? else none
  | _ => none

/-- The destructors whose bodies begin to run on the object, in order. -/
def startedDestructors (o : ObjectId) (es : List Event) : List MemberFunction :=
  es.filterMap (·.startedDestructor? o)

@[simp] theorem startedDestructors_nil : startedDestructors o [] = [] := rfl

theorem startedDestructors_append :
    startedDestructors o (es ++ fs) = startedDestructors o es ++ startedDestructors o fs :=
  List.filterMap_append

theorem startedDestructors_of_isQuiet (hes : ∀ e ∈ es, e.IsQuiet) :
    startedDestructors o es = [] := by
  refine List.filterMap_eq_nil_iff.mpr fun e he => ?_
  have hquiet := hes e he
  cases e <;> first | rfl | exact hquiet.elim

theorem startedDestructors_undo (u : Undo) (w : World) : startedDestructors o (u.events w) = [] :=
  startedDestructors_of_isQuiet fun _ he => (Undo.isLocal_of_mem_events he).isQuiet

theorem startedDestructors_leaving (x : Outcome Unit) : startedDestructors o x.leaving = [] := by
  cases x <;> rfl

theorem startedDestructors_building (o' : ObjectId) (es : List Event) (x : Outcome Unit) :
    startedDestructors o (.constructionBegun o' :: (es ++ x.closing o')) =
      startedDestructors o es := by
  have hclosing : startedDestructors o (x.closing o') = [] := by cases x <;> rfl
  rw [← List.singleton_append, startedDestructors_append, startedDestructors_append, hclosing,
    List.append_nil]
  rfl

/-- The destructor that is about to begin, which counts as begun already. -/
def Task.starting (o : ObjectId) : Task → List MemberFunction
  | .frame f a => startedDestructors o [.entered f a]
  | _ => []

@[simp] theorem Task.starting_code : Task.code.starting o = [] := rfl

theorem startedDestructors_frame (f : Frame) (a : Activity) (es : List Event) (x : Outcome Unit) :
    startedDestructors o (.entered f a :: (es ++ x.leaving)) =
      (Task.frame f a).starting o ++ startedDestructors o es := by
  rw [← List.singleton_append, startedDestructors_append, startedDestructors_append,
    startedDestructors_leaving, List.append_nil]
  rfl

/-- A destructor that is called on the object is about to begin. -/
theorem starting_callFrame (hf : f.flags = { isDestructor := true }) (n : String) :
    (Task.frame (f.callFrame (some o) n) (.body f)).starting o = [f] := by
  simp [Task.starting, startedDestructors, Event.startedDestructor?, MemberFunction.callFrame,
    Activity.destructor?, hf]

/-- What a task needs so that destructors are started in the order `L` when those that
count as begun are `S`.  A frame that chains to destructors belongs to one of them, and
what is chained to has begun or is the next. -/
def Task.KeepsOrder (o : ObjectId) (L S : List MemberFunction) (w : World) : Task → Prop
  | .code => ∀ g, w.stack.current? = some g → g.object = some o → g.ChainsToDestructors →
      ∃ d ∈ S, d.owner = g.scope
  | .frame f a => f.object = some o → f.ChainsToDestructors →
      ∃ d ∈ S ++ (Task.frame f a).starting o, d.owner = f.scope
  | .destructOnward o' f => o' = o →
      f.flags = { isDestructor := true } ∧ (f ∈ S ∨ S ++ [f] <+: L)
  | .chain t => t.KeepsOrder o L S w
  | t => t.Apart o

theorem Task.Apart.starting_eq_nil (ht : t.Apart o) : t.starting o = [] := by
  cases t with
  | frame f a =>
    by_cases hobject : f.object = some o
    · have hnone := (ht hobject).2
      simp [starting, startedDestructors, Event.startedDestructor?, hnone]
    · simp [starting, startedDestructors, Event.startedDestructor?, hobject]
  | _ => rfl

/-- Those that count as begun are an initial segment of the destructors of the object,
with the one that the task is about to start, and the task will keep it so. -/
structure Task.InOrder (o : ObjectId) (L S : List MemberFunction) (w : World) (t : Task) :
    Prop where
  begun : w.HasBegun o L (S ++ t.starting o)
  initial : S ++ t.starting o <+: L
  order : t.KeepsOrder o L S w

theorem Task.Apart.keepsOrder (ht : t.Apart o) : t.KeepsOrder o L S w := by
  induction t with
  | frame f a => exact fun hobject hchains => absurd hchains (ht hobject).1
  | code => exact ht.elim
  | destructOnward o' f => exact fun hsame => absurd hsame ht
  | chain t ih => exact ih ht
  | _ => exact ht

theorem Task.Apart.inOrder (ht : t.Apart o) (hbegun : w.HasBegun o L S) (hS : S <+: L) :
    t.InOrder o L S w := by
  refine ⟨?_, ?_, ht.keepsOrder⟩
  · rw [ht.starting_eq_nil, List.append_nil]
    exact hbegun
  · rw [ht.starting_eq_nil, List.append_nil]
    exact hS

/-- A destructor that has been marked is ready to run. -/
theorem Task.inOrder_callFrame (hf : f.flags = { isDestructor := true }) (n : String)
    (hbegun : w.HasBegun o L (S ++ [f])) (hS : S ++ [f] <+: L) :
    (Task.frame (f.callFrame (some o) n) (.body f)).InOrder o L S w := by
  refine ⟨?_, ?_, fun _ _ => ⟨f, ?_, rfl⟩⟩
  · rw [starting_callFrame hf]
    exact hbegun
  · rw [starting_callFrame hf]
    exact hS
  · rw [starting_callFrame hf]
    exact List.mem_append_right S List.mem_cons_self

theorem Task.InOrder.of_starting_eq_nil (ht : t.InOrder o L S w) (hnone : t.starting o = []) :
    w.HasBegun o L S ∧ S <+: L := by
  obtain ⟨hbegun, hS, -⟩ := ht
  rw [hnone, List.append_nil] at hbegun hS
  exact ⟨hbegun, hS⟩

/-- Only entering a frame starts a destructor. -/
theorem Task.Begins.starting_eq_nil (h : t.Begins w evs t') : t.starting o = [] := by
  cases h <;> rfl

/-- **What a task begins with keeps the order**: at most it marks the next destructor,
which it then starts. -/
theorem Task.Begins.inOrder (h : t.Begins w evs t') (hw : w.Sound)
    (hes : ∀ e ∈ evs, ¬ e.Interrupts o) (ht : t.InOrder o L S w) :
    t'.InOrder o L S (w.replay evs) := by
  obtain ⟨hbegun, hS⟩ := ht.of_starting_eq_nil h.starting_eq_nil
  have horder := ht.order
  -- a task that is apart stays so, since no deletion of the object begins here
  have hother (hapart : t.Apart o) : t'.InOrder o L S (w.replay evs) := by
    rcases h.apart hw hapart with rfl | ⟨hnext, htouches⟩
    · cases h with
      | delete => exact absurd rfl (hes _ List.mem_cons_self)
    · exact hnext.inOrder (hbegun.replay hw htouches hes) hS
  cases h with
  | @destructOnward o' f ob hob hk =>
    by_cases hsame : o' = o
    · subst hsame
      obtain ⟨hflags, hnext⟩ := horder rfl
      -- the destructor is unmarked, so it has not begun and comes next
      have hlater : S ++ [f] <+: L := by
        refine hnext.resolve_left fun hmem => ?_
        rw [(hbegun.isDestructed_iff hw hS hob (hS.subset hmem)).mpr hmem] at hk
        cases hk
      have hobject : (if f.flags.isCommon then none else some o') = some o' := by simp [hflags]
      rw [hobject]
      -- marking it makes it the latest that has begun, before its frame is entered
      exact Task.inOrder_callFrame hflags f.fullName (hbegun.marked hob hk) hlater
    · exact hother hsame
  | destructorBegun =>
    have hdone : Task.done.Apart o := trivial
    exact hdone.inOrder hbegun hS
  | chain honward =>
    cases t' with
    | «constructor» => exact hother trivial
    | destructOnward o' f =>
      have hnone : S ++ (Task.destructOnward o' f).starting o = S := List.append_nil S
      refine ⟨?_, ?_, horder⟩
      · rw [hnone]
        exact hbegun
      · rw [hnone]
        exact hS
    | _ => exact honward.elim
  | _ => exact hother horder

/-- **What running code takes up keeps the order**: at most it is the destructor that
comes next, to which the running one chains. -/
theorem World.Available.inOrder (h : w.Available t) (hw : w.Sound)
    (hregular : w.registry.Regular) (hcode : Task.code.InOrder o L S w) : t.InOrder o L S w := by
  obtain ⟨hbegun, hS⟩ := hcode.of_starting_eq_nil rfl
  rcases h.apart hw hregular o with hapart | ⟨g, f, rfl, hg, hobject, hchains, hf, hdtor⟩
  · exact hapart.inOrder hbegun hS
  · have hscope := hcode.order g hg hobject hchains
    have hnext := hbegun.next hw hS hg hobject hchains hscope hf
    obtain ⟨_, _, _, k, d, -, -, -, -, -, -, hd, hfd⟩ := World.exists_of_chainTarget hf
    have hflags := (hw.built.function?_spec hd hfd).2.2.flags_of_destructor hdtor
    refine ⟨?_, ?_, fun _ => ⟨hflags, hnext⟩⟩
    · simpa [Task.starting] using hbegun
    · simpa [Task.starting] using hS

/-- Inside a frame its destructor has begun and been started. -/
theorem Task.InOrder.entered {f : Frame} {a : Activity} (ht : (Task.frame f a).InOrder o L S w) :
    Task.code.InOrder o L (S ++ (Task.frame f a).starting o) (w.after (.entered f a)) := by
  refine ⟨?_, ?_, fun g hg hobject hchains => ?_⟩
  · rw [Task.starting_code, List.append_nil]
    exact ht.begun
  · rw [Task.starting_code, List.append_nil]
    exact ht.initial
  · cases hg
    exact ht.order hobject hchains

/-- **Running code starts destructors in the order of the heritage.**  Those that have
begun are an initial segment of them at every moment, and all that have begun have been
started. -/
theorem Course.startedDestructors_initial (h : Course t w es x) (hw : w.Sound)
    (hregular : (w.replay es).registry.Regular) (hes : ∀ e ∈ es, ¬ e.Interrupts o)
    (ht : t.InOrder o L S w) :
    S ++ startedDestructors o es <+: L ∧
      (x ≠ .exhausted → (w.replay es).HasBegun o L (S ++ startedDestructors o es)) := by
  -- a course without events
  have hended {S : List MemberFunction} {t : Task} {v : World} (hnone : t.starting o = [])
      (ht : t.InOrder o L S v) (x : Outcome Unit) : S ++ startedDestructors o [] <+: L ∧
        (x ≠ .exhausted → (v.replay []).HasBegun o L (S ++ startedDestructors o [])) := by
    obtain ⟨hbegun, hS⟩ := ht.of_starting_eq_nil hnone
    rw [startedDestructors_nil, List.append_nil]
    exact ⟨hS, fun _ => hbegun⟩
  induction h generalizing S with
  | cut t =>
    rw [startedDestructors_nil, List.append_nil]
    exact ⟨(List.prefix_append S _).trans ht.initial, fun hx => absurd rfl hx⟩
  | done | idle | notCreated => exact hended rfl ht _
  | @gone t w o' e hsubject hdead =>
    have hnone : t.starting o = [] := by
      cases t with
      | frame => cases hsubject
      | _ => rfl
    exact hended hnone ht _
  | @begins t t' w evs es x h _ ih =>
    rw [List.forall_mem_append] at hes
    rw [World.replay_append] at hregular ⊢
    rw [startedDestructors_append, startedDestructors_of_isQuiet h.isQuiet, List.nil_append]
    -- marks start nothing; what they mark is started by the rest
    exact ih (hw.replay h.admitsAll) hregular hes.2 (h.inOrder hw hes.1 ht)
  | refused => exact absurd trivial (hes _ List.mem_cons_self)
  | @frame w f a es x hroom h ih =>
    rw [World.replay_cons, World.replay_append] at hregular ⊢
    rw [List.forall_mem_cons, List.forall_mem_append] at hes
    rw [startedDestructors_frame, ← List.append_assoc]
    have hlater := hregular.of_growsTo (World.leadsTo_replay _ x.leaving).registry
    obtain ⟨horder, hend⟩ := ih (hw.after hroom) hlater hes.2.1 ht.entered
    refine ⟨horder, fun hx => ?_⟩
    -- leaving the frame changes neither the object nor the registry
    rw [World.replay_leaving hx]
    exact hend hx
  | @building o' t w es x h ih =>
    rw [World.replay_cons, World.replay_append] at hregular ⊢
    rw [List.forall_mem_cons, List.forall_mem_append] at hes
    rw [startedDestructors_building]
    obtain ⟨hbegun, hS⟩ := ht.of_starting_eq_nil rfl
    have hapart : t.Apart o := ht.order
    have hinner : t.InOrder o L S (w.after (.constructionBegun o')) := hapart.inOrder hbegun hS
    have hlater := hregular.of_growsTo (World.leadsTo_replay _ (x.closing o')).registry
    obtain ⟨horder, hend⟩ := ih (hw.after trivial) hlater hes.2.1 hinner
    refine ⟨horder, fun hx => ?_⟩
    rw [World.replay_closing hx]
    exact hend hx
  | @seq t next w es fs x h _ ih ih' =>
    rw [List.forall_mem_append] at hes
    rw [World.replay_append] at hregular ⊢
    rw [startedDestructors_append, ← List.append_assoc]
    obtain ⟨hbegun, hS⟩ := ht.of_starting_eq_nil rfl
    obtain ⟨hfirst, hnext⟩ : t.Apart o ∧ next.Apart o := ht.order
    have hlater := hregular.of_growsTo (World.leadsTo_replay _ fs).registry
    obtain ⟨horder, hend⟩ := ih hw hlater hes.1 (hfirst.inOrder hbegun hS)
    exact ih' (h.sound hw) hregular hes.2 (hnext.inOrder (hend (by simp)) horder)
  | @seqStop t next w es x _ _ ih =>
    obtain ⟨hbegun, hS⟩ := ht.of_starting_eq_nil rfl
    obtain ⟨hfirst, -⟩ : t.Apart o ∧ next.Apart o := ht.order
    exact ih hw hregular hes (hfirst.inOrder hbegun hS)
  | @guarded t u w es x _ _ ih =>
    obtain ⟨hbegun, hS⟩ := ht.of_starting_eq_nil rfl
    obtain ⟨hinner, -⟩ : t.Apart o ∧ u ≠ .forget o := ht.order
    exact ih hw hregular hes (hinner.inOrder hbegun hS)
  | @undone t u w es e e' h ih =>
    rw [List.forall_mem_append] at hes
    rw [World.replay_append] at hregular ⊢
    obtain ⟨hbegun, hS⟩ := ht.of_starting_eq_nil rfl
    obtain ⟨hinner, hu⟩ : t.Apart o ∧ u ≠ .forget o := ht.order
    have hlater := hregular.of_growsTo (World.leadsTo_replay _ (u.events _)).registry
    obtain ⟨horder, hend⟩ := ih hw hlater hes.1 (hinner.inOrder hbegun hS)
    rw [startedDestructors_append, startedDestructors_undo, List.append_nil]
    refine ⟨horder, fun _ => (hend (by simp)).replay (h.sound hw) ?_ hes.2⟩
    exact fun e he => Undo.not_touchesDestructors hu he
  | @plain w e he hplain =>
    obtain ⟨hbegun, hS⟩ := ht.of_starting_eq_nil rfl
    rw [startedDestructors_of_isQuiet (by simpa using hplain.isQuiet), List.append_nil]
    exact ⟨hS, fun _ => hbegun.replay hw (by simpa using hplain.not_touchesDestructors) hes⟩
  | @task t w es x havailable _ ih =>
    have hnow := hregular.of_growsTo (World.leadsTo_replay w es).registry
    exact ih hw hregular hes (havailable.inOrder hw hnow ht)
  | @andThen w es fs x h _ ih ih' =>
    rw [List.forall_mem_append] at hes
    rw [World.replay_append] at hregular ⊢
    rw [startedDestructors_append, ← List.append_assoc]
    have hlater := hregular.of_growsTo (World.leadsTo_replay _ fs).registry
    obtain ⟨horder, hend⟩ := ih hw hlater hes.1 ht
    refine ih' (h.sound hw) hregular hes.2 ⟨?_, ?_, fun g hg hobject hchains => ?_⟩
    · simpa using hend (by simp)
    · simpa using horder
    · -- it is still the same frame
      rw [(h.keeps (by simp)).stack] at hg
      obtain ⟨d, hd, howner⟩ := ht.order g hg hobject hchains
      exact ⟨d, List.mem_append_left _ hd, howner⟩
  | ends _ hx _ ih =>
    obtain ⟨horder, hend⟩ := ih hw hregular hes ht
    exact ⟨horder, fun _ => hend hx⟩

/-! ### The deletion -/

/-- A frame that is not refused starts what it is about to start. -/
theorem Course.starting_initial {f : Frame} {a : Activity} (h : Course (.frame f a) w es x)
    (hes : ∀ e ∈ es, ¬ e.Interrupts o) (hx : x ≠ .exhausted) :
    (Task.frame f a).starting o <+: startedDestructors o es := by
  rcases h.cases_of_frame with ⟨-, hnone⟩ | ⟨rfl, -⟩ | ⟨fs, rfl, -⟩
  · exact absurd hnone hx
  · exact absurd trivial (hes _ List.mem_cons_self)
  · rw [startedDestructors_frame]
    exact List.prefix_append _ _

/-- What has to be forgotten is forgotten, and the object lives on. -/
theorem World.HasBegun.forget (h : w.HasBegun o L S) :
    ∃ ob, (w.replay ((Undo.forget o).events w)).objects.get? o = some ob ∧ ob.destructed = [] := by
  obtain ⟨ob, _, hob, -⟩ := h
  have hlives : .objectRemoved o ∉ (Undo.forget o).events w := by
    intro hmem
    cases Undo.eq_event_of_mem hmem
  obtain ⟨ob', hob', -⟩ := World.exists_get?_replay hob hlives
  exact ⟨ob', hob', w.atRest_of_forget o ob' hob'⟩

/-- A class whose destructor has begun is one of those that have been gone through. -/
theorem World.HasBegun.of_isDestructed {A : List MemberFunction} {k : ClassId}
    {ks : List ClassId} (hw : w.Sound) (h : w.HasBegun o L S) (hS : S <+: L)
    (hL : L = A ++ w.registry.destructorsOf (k :: ks)) (hA : A <+: S)
    (hob : w.objects.get? o = some ob) (hk : ob.isDestructed k = true) :
    A ++ w.registry.destructorsOf [k] <+: S := by
  have hnodup := h.nodup hw
  obtain ⟨d, hd, c, hc, hcd⟩ := h.exists_of_isDestructed hw hS hob hk
  rw [Registry.destructorsOf_cons_of_some hc hcd] at hL ⊢
  rw [hL] at hS hnodup
  refine (eq_or_goes_on hA hS).resolve_left ?_
  rintro rfl
  -- then its destructor would come once more after all that have begun
  rw [List.nodup_append] at hnodup
  exact hnodup.2.2 d hd d List.mem_cons_self rfl

/-- When the destructor of a class has not begun, those of the classes before it are all
that have. -/
theorem World.HasBegun.eq_of_not_isDestructed {A R : List MemberFunction} (hw : w.Sound)
    (h : w.HasBegun o L S) (hS : S <+: L) (hL : L = A ++ f :: R) (hA : A <+: S)
    (hob : w.objects.get? o = some ob) (hf : ob.isDestructed f.owner = false) : S = A := by
  have hfresh : f ∉ S := by
    intro hmem
    rw [(h.isDestructed_iff hw hS hob (hS.subset hmem)).mpr hmem] at hf
    cases hf
  rw [hL] at hS
  refine (eq_or_goes_on hA hS).resolve_right fun hmore => ?_
  exact hfresh (hmore.subset (by simp))

/-- **One class of the heritage.**  `A` are the destructors of the classes before it.
Its destructor has begun by way of chaining, or it is the next and begins now. -/
theorem Course.startedDestructors_of_destruct {A : List MemberFunction} {k : ClassId}
    {ks : List ClassId} (h : Course (.destruct o k) w es x) (hw : w.Sound)
    (hregular : (w.replay es).registry.Regular) (hes : ∀ e ∈ es, ¬ e.Interrupts o)
    (hbegun : w.HasBegun o L S) (hS : S <+: L) (hL : L = A ++ w.registry.destructorsOf (k :: ks))
    (hA : A <+: S) :
    S ++ startedDestructors o es <+: L ∧
    (x = .value () → (w.replay es).HasBegun o L (S ++ startedDestructors o es) ∧
      A ++ w.registry.destructorsOf [k] <+: S ++ startedDestructors o es) ∧
    (∀ e, x = .failure e → ∃ ob, (w.replay es).objects.get? o = some ob ∧ ob.destructed = []) := by
  rcases h.cases_of_destruct with ⟨rfl, rfl | ⟨-, hdead⟩ | ⟨rfl, hnothing⟩⟩ |
    ⟨ob, c, f, rest, hob, hk, hc, hf, rfl, hguarded⟩
  · rw [startedDestructors_nil, List.append_nil]
    exact ⟨hS, by simp, by simp⟩
  · obtain ⟨ob, _, hob, -⟩ := hbegun
    rw [hdead] at hob
    cases hob
  · rw [startedDestructors_nil, List.append_nil]
    refine ⟨hS, fun _ => ⟨hbegun, ?_⟩, by simp⟩
    rcases hnothing with ⟨c, hc, hnone⟩ | ⟨ob, hob, hk⟩
    · rw [Registry.destructorsOf_cons_of_none hc hnone]
      simpa [Registry.destructorsOf] using hA
    · exact hbegun.of_isDestructed hw hS hL hA hob hk
  · obtain ⟨howner, -⟩ := hw.built.function?_spec hc hf
    rw [Registry.destructorsOf_cons_of_some hc hf] at hL
    rw [← howner] at hk
    have hbefore := hbegun.eq_of_not_isDestructed hw hS hL hA hob hk
    -- the mark is set before the frame is entered, so a refused frame would leave `f`
    -- marked and not started
    have hnext : S ++ [f] <+: L := ⟨w.registry.destructorsOf ks, by rw [hL, hbefore]; simp⟩
    have hnow := hregular.of_growsTo (World.leadsTo_replay w _).registry
    have hflags := hw.built.flags_of_destructor hnow hc hf
    rw [← howner] at hguarded hregular hes ⊢
    have hinner := Task.inOrder_callFrame hflags destructorName (hbegun.marked hob hk) hnext
    rw [List.forall_mem_cons] at hes
    have hmarked := hw.after (e := .destructorMarked o f.owner) trivial
    have hstarted : startedDestructors o (.destructorMarked o f.owner :: rest) =
        startedDestructors o rest := rfl
    rw [hstarted, World.replay_cons]
    rw [World.replay_cons] at hregular
    rcases hguarded.cases_of_guarded with ⟨hframe, hx⟩ | ⟨fs, e, e', rfl, rfl, hframe⟩
    · obtain ⟨horder, hend⟩ := hframe.startedDestructors_initial hmarked hregular hes.2 hinner
      refine ⟨horder, ?_, fun e he => absurd he (hx e)⟩
      rintro rfl
      refine ⟨hend (by simp), ?_⟩
      -- the frame has started `f` before anything else
      have hfirst := hframe.starting_initial hes.2 (by simp)
      rw [starting_callFrame hflags] at hfirst
      have hc : w.registry.get? f.owner = some c := by rw [howner]; exact hc
      rw [Registry.destructorsOf_cons_of_some hc hf, hbefore, List.prefix_append_right_inj]
      exact hfirst
    · rw [List.forall_mem_append] at hes
      rw [World.replay_append] at hregular ⊢
      have hlater := hregular.of_growsTo (World.leadsTo_replay _ _).registry
      obtain ⟨horder, hend⟩ := hframe.startedDestructors_initial hmarked hlater hes.2.1 hinner
      rw [startedDestructors_append, startedDestructors_undo, List.append_nil]
      exact ⟨horder, by simp, fun _ _ => (hend (by simp)).forget⟩

/-- **The whole heritage**, or what is left of it. -/
theorem Course.startedDestructors_of_all {A : List MemberFunction} {ks : List ClassId}
    (h : Course (.all (ks.map (.destruct o))) w es x) (hw : w.Sound)
    (hregular : (w.replay es).registry.Regular) (hes : ∀ e ∈ es, ¬ e.Interrupts o)
    (hbegun : w.HasBegun o L S) (hS : S <+: L) (hks : ∀ k ∈ ks, (w.registry.get? k).isSome)
    (hL : L = A ++ w.registry.destructorsOf ks) (hA : A <+: S) :
    S ++ startedDestructors o es <+: L ∧
    (x = .value () → S ++ startedDestructors o es = L) ∧
    (∀ e, x = .failure e → ∃ ob, (w.replay es).objects.get? o = some ob ∧ ob.destructed = []) := by
  induction ks generalizing w es S A with
  | nil =>
    obtain ⟨rfl, hx⟩ := h.cases_of_done
    rw [startedDestructors_nil, List.append_nil]
    -- between `A` and `L` there is nothing left
    have hLA : L = A := by simpa [Registry.destructorsOf] using hL
    refine ⟨hS, fun _ => ?_, ?_⟩
    · exact hS.eq_of_length_le (by rw [hLA]; exact hA.length_le)
    · rintro e rfl
      rcases hx with hx | hx <;> cases hx
  | cons k ks ih =>
    rcases h.cases_of_seq with ⟨hfirst, hx⟩ | ⟨fs, gs, rfl, hfirst, hrest⟩
    · obtain ⟨horder, -, hend⟩ := hfirst.startedDestructors_of_destruct hw hregular hes hbegun hS
        hL hA
      exact ⟨horder, fun hvalue => absurd hvalue hx, hend⟩
    · rw [List.forall_mem_append] at hes
      rw [World.replay_append] at hregular ⊢
      rw [startedDestructors_append, ← List.append_assoc]
      have hlater := hregular.of_growsTo (World.leadsTo_replay _ gs).registry
      obtain ⟨horder, hend, -⟩ := hfirst.startedDestructors_of_destruct hw hlater hes.1 hbegun hS
        hL hA
      obtain ⟨hbegun', hA'⟩ := hend rfl
      -- classes may have been registered meanwhile, those of the heritage stay as they are
      have hgrows := (World.leadsTo_replay w fs).registry
      have hrest' := (List.forall_mem_cons.mp hks).2
      refine ih hrest (hfirst.sound hw) hregular hes.2 hbegun' horder
        (fun i hi => hgrows.isSome_get? (hrest' i hi)) ?_ hA'
      rw [Registry.destructorsOf_of_growsTo hrest' hgrows, List.append_assoc,
        ← Registry.destructorsOf_append]
      exact hL

/-- Where no further deletion of the object begins and no frame is refused, nothing comes
between its destructors: only a further deletion could remove the object. -/
theorem Course.not_interrupts_of_all {ks : List ClassId}
    (h : Course (.all (ks.map (.destruct o))) w es x) (hw : w.Sound) (hbegun : w.HasBegun o L S)
    (honce : .deletionBegun o ∉ es) (hadmitted : ∀ f a, .refused f a ∉ es) :
    ∀ e ∈ es, ¬ e.Interrupts o := by
  obtain ⟨ob, _, hob, -⟩ := hbegun
  intro e he hinterrupts
  cases e with
  | deletionBegun o' =>
    cases (show o' = o from hinterrupts)
    exact honce he
  | objectRemoved o' =>
    cases (show o' = o from hinterrupts)
    -- what removes the object has begun as a further deletion of it
    obtain ⟨before, after, rfl, -⟩ := h.deletedWithin_of_removed (hw.allocated o ob hob)
      (Task.spares_destruct o ks) he
    exact honce (by simp)
  | refused f a => exact hadmitted f a he
  | _ => exact hinterrupts

/-- The course of a deletion that finds the object at rest. -/
theorem Course.startedDestructors_of_delete (h : Course (.delete o) w es x) (hw : w.Sound)
    (hob : w.objects.get? o = some ob) (hc : w.registry.get? ob.cls = some c)
    (hrest : w.AtRest o) (hregular : (w.replay es).registry.Regular)
    (honce : .deletionBegun o ∉ es.tail) (hadmitted : ∀ f a, .refused f a ∉ es) :
    startedDestructors o es <+: w.registry.destructorsOf c.heritage ∧
    (x = .value () → startedDestructors o es = w.registry.destructorsOf c.heritage ∧
      (w.replay es).objects.get? o = none) ∧
    (∀ e, x = .failure e → ∃ ob', (w.replay es).objects.get? o = some ob' ∧
      ob'.destructed = []) := by
  have hbegun : w.HasBegun o (w.registry.destructorsOf c.heritage) [] :=
    ⟨ob, c, hob, hc, rfl, hrest ob hob⟩
  rcases h.cases_of_delete with ⟨rfl, hx⟩ | ⟨ob', c', rest, hob', hc', rfl, hseq⟩
  · rcases hx with rfl | ⟨-, hdead⟩
    · exact ⟨by simp, by simp, by simp⟩
    · rw [hob] at hdead
      cases hdead
  · cases hob.symm.trans hob'
    cases hc.symm.trans hc'
    rw [List.tail_cons] at honce
    have hstarted : startedDestructors o (.deletionBegun o :: rest) = startedDestructors o rest :=
      rfl
    have hadmitted : ∀ f a, .refused f a ∉ rest :=
      fun f a hmem => hadmitted f a (List.mem_cons_of_mem _ hmem)
    rw [hstarted, World.replay_cons]
    -- the heritage is gone through from the start, with no destructor begun
    have hall {fs : List Event} {y : Outcome Unit} (hfs : fs ⊆ rest)
        (hlater : (w.replay fs).registry.Regular)
        (h : Course (.all (c.heritage.map (.destruct o))) w fs y) :=
      h.startedDestructors_of_all (A := []) hw hlater
        (h.not_interrupts_of_all hw hbegun (fun hmem => honce (hfs hmem))
          fun f a hmem => hadmitted f a (hfs hmem))
        hbegun List.nil_prefix (hw.built.isSome_of_mem_heritage hc) (List.nil_append _).symm
        List.nil_prefix
    rcases hseq.cases_of_seq with ⟨hdestructors, hx⟩ | ⟨fs, gs, rfl, hdestructors, hremove⟩
    · -- a destructor has failed, and the object is not removed
      obtain ⟨horder, -, hend⟩ := hall (List.Subset.refl _) hregular hdestructors
      exact ⟨horder, fun hvalue => absurd hvalue hx, hend⟩
    · have hlater : (w.replay fs).registry.Regular := by
        rw [World.replay_cons, World.replay_append] at hregular
        exact hregular.of_growsTo (World.leadsTo_replay _ gs).registry
      obtain ⟨horder, hwhole, -⟩ := hall (List.subset_append_left fs gs) hlater hdestructors
      rw [List.nil_append] at horder hwhole
      rw [startedDestructors_append]
      rcases hremove.cases_of_remove with ⟨rfl, rfl⟩ | ⟨rfl, hx⟩
      · rw [startedDestructors_nil, List.append_nil]
        exact ⟨horder, by simp, by simp⟩
      · rw [startedDestructors_undo, List.append_nil]
        refine ⟨horder, fun _ => ⟨hwhole rfl, ?_⟩, ?_⟩
        · show (w.replay (fs ++ _)).objects.get? o = none
          rw [World.replay_append]
          exact World.get?_of_remove _ o
        · rintro e rfl
          rcases hx with hx | hx <;> cases hx

/-- **What a deletion starts, and what it leaves behind**, at every moment of every
session at which an object begins to be deleted while no destructor of it is running;
provided that names are in order, that no code deletes the object again meanwhile and
that no frame is refused.  Such a deletion is an outermost one: code runs within a
deletion of an object only in frames of its destructors, and such frames are entered
nowhere else (`World.Available.apart`).  The destructors that it starts are an initial
segment of those of the heritage, none of them twice.  When it succeeds it has started
all of them and the object is gone; when it fails the object lives on and no destructor
counts as begun any more. -/
theorem destructors_of_deletion {opts : EngineOptions} (hw : Session.BeginsDeletion opts w o)
    (houtermost : ¬ w.RunsDestructor o) (hob : w.objects.get? o = some ob)
    (hc : w.registry.get? ob.cls = some c) {loads frames : Nat} {out : Outcome Unit} {s : State}
    (hrun : deleteObject (enterFrame (runCode loads frames)) o { world := w } = (out, s))
    (hregular : s.world.registry.Regular) (honce : .deletionBegun o ∉ s.journal.reverse.tail)
    (hadmitted : ∀ f a, .refused f a ∉ s.journal) :
    startedDestructors o s.journal.reverse <+: w.registry.destructorsOf c.heritage ∧
    (startedDestructors o s.journal.reverse).Nodup ∧
    (out = .value () →
      startedDestructors o s.journal.reverse = w.registry.destructorsOf c.heritage ∧
        s.world.objects.get? o = none) ∧
    (∀ e, out = .failure e → ∃ ob', s.world.objects.get? o = some ob' ∧ ob'.cls = ob.cls ∧
      ob'.destructed = []) := by
  have hsound := hw.sound
  have hperforms := deleteObject_performs (s := { world := w })
    (conforms_evaluationLaw.runCode loads frames) hsound o
  obtain ⟨hcourse, hworld⟩ := hperforms.journal
  rw [hrun] at hcourse hworld
  dsimp only at hcourse hworld
  rw [hworld] at hregular ⊢
  have hdelete : Course (.delete o) w s.journal.reverse out.ending := hcourse
  have hleads := w.leadsTo_replay s.journal.reverse
  have hrest := hw.atRest (hregular.of_growsTo hleads.registry) houtermost
  obtain ⟨horder, hvalue, hfailure⟩ := hdelete.startedDestructors_of_delete hsound hob hc hrest
    hregular honce fun f a hmem => hadmitted f a (List.mem_reverse.mp hmem)
  refine ⟨horder, ?_, ?_, ?_⟩
  · exact horder.sublist.nodup
      (hsound.built.nodup_implementations (hsound.built.nodup_heritage hc))
  · rintro rfl
    exact hvalue rfl
  · rintro e rfl
    obtain ⟨ob', hob', hdestructed⟩ := hfailure e rfl
    obtain ⟨_, hold, hcls, -⟩ := hleads.objects o ob' (hsound.allocated o ob hob) hob'
    cases hob.symm.trans hold
    exact ⟨ob', hob', hcls, hdestructed⟩

end

/-- Defines a class with a destructor, one without that inherits from it, and one that
inherits from that, whose destructor chains twice and fails as long as the doors are
shut, which it then opens; creates an object of the last and deletes it twice. -/
def towers : List Expr :=
  [.sequence [
    .defineClass { name := "Ground", members := [.dtor (.log (.const (.str "ground")))] },
    .defineClass { name := "Storey", inherits := ["Ground"] },
    .defineClass
      { name := "Tower", inherits := ["Storey"]
        members :=
          [.var "doors" .priv (some (.int 0)),
            .dtor (.sequence [.chain [], .chain [],
              .cond (.less (.getVar (.const (.str "doors"))) (.const (.int 1)))
                (.sequence [.setVar (.const (.str "doors")) (.const (.int 1)),
                  .raise .script (.const (.str "shut"))])
                (.const (.str "open"))])] },
    .create (some (.const (.str "Tower"))) (.const (.str "t")) []],
    .delete (some (.const (.str "t"))), .delete (some (.const (.str "t")))]

/-- What happens in that session. -/
def towerHistory : List Event := Session.history 0 (World.initial {}) towers

/-- The world up to a moment of that session. -/
def towerWorld (n : Nat) : World := (World.initial {}).replay (towerHistory.take n)

/-- The deletion of the tower at that moment. -/
def towerRun (n : Nat) : Outcome Unit × State :=
  deleteObject (enterFrame (runCode 0 3)) ⟨1⟩ { world := towerWorld n }

/-- The event is the beginning of a deletion of the tower. -/
def deletesTower : Event → Bool
  | .deletionBegun o => o = ⟨1⟩
  | _ => false

/-- At that moment the tower begins to be deleted, and nothing comes in between. -/
structure TowerFalls (n : Nat) : Prop where
  begins : (towerHistory.drop n).head?.any deletesTower = true
  frames : (towerWorld n).stack.frames = []
  object : ((towerWorld n).objects.get? ⟨1⟩).map (·.cls) = some ⟨2⟩
  destructors : ((towerWorld n).registry.get? ⟨2⟩).map
    (fun c => ((towerWorld n).registry.destructorsOf c.heritage).map (·.owner)) =
      some [⟨2⟩, ⟨0⟩]
  regular : (towerRun n).2.world.registry.Regular
  once : (towerRun n).2.journal.reverse.tail.all (!deletesTower ·) = true
  admitted : (towerRun n).2.journal.all
    (fun e => match e with | .refused _ _ => false | _ => true) = true

theorem TowerFalls.beginsDeletion {n : Nat} (h : TowerFalls n) :
    Session.BeginsDeletion {} (towerWorld n) ⟨1⟩ := by
  have hbegins := h.begins
  cases hdrop : towerHistory.drop n with
  | nil =>
    rw [hdrop] at hbegins
    cases hbegins
  | cons e after =>
    rw [hdrop] at hbegins
    cases e with
    | deletionBegun o =>
      have ho : o = ⟨1⟩ := by simpa [deletesTower] using hbegins
      refine ⟨0, towers, towerHistory.take n, after, ?_, rfl⟩
      rw [← ho, ← hdrop, List.take_append_drop]
      rfl
    | _ => cases hbegins

theorem towerFalls_first : TowerFalls 10 where
  begins := by decide +kernel
  frames := by decide +kernel
  object := by decide +kernel
  destructors := by decide +kernel
  regular := by decide +kernel
  once := by decide +kernel
  admitted := by decide +kernel

theorem towerFalls_again : TowerFalls 22 where
  begins := by decide +kernel
  frames := by decide +kernel
  object := by decide +kernel
  destructors := by decide +kernel
  regular := by decide +kernel
  once := by decide +kernel
  admitted := by decide +kernel

/-- The first deletion fails and leaves the tower as if no destructor had begun; the
second starts both of them, and the tower is gone. -/
theorem destructors_of_towers :
    ((∃ ob, (towerRun 10).2.world.objects.get? ⟨1⟩ = some ob ∧ ob.cls = ⟨2⟩ ∧
        ob.destructed = []) ∧
      (startedDestructors ⟨1⟩ (towerRun 10).2.journal.reverse).map (·.owner) <+: [⟨2⟩, ⟨0⟩]) ∧
    ((startedDestructors ⟨1⟩ (towerRun 22).2.journal.reverse).map (·.owner) = [⟨2⟩, ⟨0⟩] ∧
      (towerRun 22).2.world.objects.get? ⟨1⟩ = none) := by
  -- both deletions are cases of the theorem, at moment 10 and at moment 22
  have hdeletion {n : Nat} (h : TowerFalls n) {out : Outcome Unit} {s : State}
      (hrun : towerRun n = (out, s)) :
      (startedDestructors ⟨1⟩ s.journal.reverse).map (·.owner) <+: [⟨2⟩, ⟨0⟩] ∧
      (out = .value () → (startedDestructors ⟨1⟩ s.journal.reverse).map (·.owner) = [⟨2⟩, ⟨0⟩] ∧
        s.world.objects.get? ⟨1⟩ = none) ∧
      (∀ e, out = .failure e → ∃ ob, s.world.objects.get? ⟨1⟩ = some ob ∧ ob.cls = ⟨2⟩ ∧
        ob.destructed = []) := by
    obtain ⟨ob, hob, hcls⟩ := Option.map_eq_some_iff.mp h.object
    obtain ⟨c, hc, howners⟩ := Option.map_eq_some_iff.mp h.destructors
    have hidle : ¬ (towerWorld n).RunsDestructor ⟨1⟩ := by
      rintro ⟨f, hf, -⟩
      rw [h.frames] at hf
      cases hf
    have honce : .deletionBegun ⟨1⟩ ∉ (towerRun n).2.journal.reverse.tail := by
      intro hmem
      cases List.all_eq_true.mp h.once _ hmem
    have hadmitted (f : Frame) (a : Activity) : .refused f a ∉ (towerRun n).2.journal := by
      intro hmem
      cases List.all_eq_true.mp h.admitted _ hmem
    have hregular := h.regular
    rw [hrun] at honce hadmitted hregular
    rw [← hcls] at hc
    obtain ⟨horder, -, hvalue, hfailure⟩ := destructors_of_deletion h.beginsDeletion hidle hob hc
      hrun hregular honce hadmitted
    rw [← howners, ← hcls]
    refine ⟨horder.map (·.owner), fun hout => ?_, hfailure⟩
    obtain ⟨hwhole, hgone⟩ := hvalue hout
    exact ⟨congrArg (List.map (·.owner)) hwhole, hgone⟩
  obtain ⟨e, hfails⟩ : ∃ e, (towerRun 10).1 = .failure e :=
    Outcome.exists_of_isFailure (by decide +kernel)
  have hsucceeds : (towerRun 22).1 = .value () := by decide +kernel
  have hfirst : towerRun 10 = (.failure e, (towerRun 10).2) := by
    rw [← hfails]
  have hagain : towerRun 22 = (.value (), (towerRun 22).2) := by
    rw [← hsucceeds]
  obtain ⟨hstarted, -, hlives⟩ := hdeletion towerFalls_first hfirst
  obtain ⟨-, hgone, -⟩ := hdeletion towerFalls_again hagain
  exact ⟨⟨hlives e rfl, hstarted⟩, hgone rfl⟩

end ObjectDispatch
