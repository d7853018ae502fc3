import ObjectDispatch.Proofs.History

/-!
# The scopes of frames

Code runs on an object in the scope of a class, and that class is one of the
heritage of the object's class.  Methods, hooks and destructors are found in the
heritage, and constructors run for the object whose class inherits them.

There is one way around this.  A constructor that is chained to runs for the
object under construction, whatever object the chaining code has.  Where the
chaining code is a constructor itself, the two are the same; but a function that is
called `constructor` without having been declared as one runs on any object, and
while another object is under construction it makes that one run constructors of
a heritage that is not its own.

A frame is in scope or has come about in this way, at every moment of a session.

## Main definitions

* `Frame.Strays` — the frame of a function that chains to constructors and is none.
* `World.InScope` — the class of a frame suits its object.
* `World.WellScoped`, `Task.Fits` — the invariant, and what a task needs to keep
  it.

## Main results

* `Course.wellScoped` — the invariant holds at every moment of a course.
* `scope_of_frame` — **the class of a frame is in the heritage of its object's
  class, but for strayed constructors.**
-/

namespace ObjectDispatch

/-! ### Every moment of a sequence of events -/

namespace World

variable {I : World → Prop} {w : World}

/-- Every moment of the events satisfies `I`, the first and the last included. -/
def Always (I : World → Prop) (w : World) (es : List Event) : Prop :=
  ∀ k, I (w.replay (es.take k))

theorem always_nil : w.Always I [] ↔ I w := by
  simp [Always]

theorem Always.last {es : List Event} (h : w.Always I es) : I (w.replay es) := by
  simpa using h es.length

theorem always_cons {e : Event} {es : List Event} (hw : I w) (h : (w.after e).Always I es) :
    w.Always I (e :: es) := by
  intro k
  cases k with
  | zero => exact hw
  | succ k => exact h k

/-- There are no more moments than events, but for the first. -/
theorem always_of_forall_le {es : List Event}
    (h : ∀ k ≤ es.length, I (w.replay (es.take k))) : w.Always I es := by
  intro k
  by_cases hk : k ≤ es.length
  · exact h k hk
  · have hlast := h es.length (Nat.le_refl _)
    rw [List.take_length] at hlast
    rw [List.take_of_length_le (by omega)]
    exact hlast

theorem always_append {es fs : List Event} (h : w.Always I es) (h' : (w.replay es).Always I fs) :
    w.Always I (es ++ fs) := by
  intro k
  rw [List.take_append, replay_append]
  by_cases hk : k ≤ es.length
  · rw [Nat.sub_eq_zero_of_le hk]
    exact h k
  · rw [List.take_of_length_le (by omega)]
    exact h' _

end World

/-! ### Scopes -/

/-- The frame runs code as a constructor: an initializer or what is called
`constructor`. -/
def Frame.Constructs (f : Frame) : Prop :=
  f.member = some constructorName ∨ f.member = some initializerName

/-- The frame of a function that chains to constructors and is none. -/
def Frame.Strays (f : Frame) : Prop :=
  f.kind ≠ .ctor ∧ ∃ m, f.member = some m ∧ chainName m = constructorName

namespace World

variable {w w' : World}

/-- The number of the object has been given out and, as long as the object lives, it
is of the class `k`. -/
def Kin (w : World) (o : ObjectId) (k : ClassId) : Prop :=
  o.number ≤ w.objects.created ∧
    ∀ ob, w.objects.get? o = some ob → w.registry.IsA ob.cls k

/-- A frame that strays is below, and the object is under construction. -/
def StraysFrom (w : World) (o : ObjectId) (below : List Frame) : Prop :=
  o ∈ w.building ∧ ∃ g rest, below = g :: rest ∧ g.Strays

/-- The class of a frame suits its object, or the frame constructs by way of a frame
that strays. -/
def InScope (w : World) (f : Frame) (below : List Frame) : Prop :=
  f.kind ≠ .eval → ∀ o, f.object = some o →
    w.Kin o f.scope ∨ (f.Constructs ∧ o.number ≤ w.objects.created ∧ w.StraysFrom o below)

/-- All of the frames are in scope. -/
def AllInScope (w : World) : List Frame → Prop
  | [] => True
  | f :: below => w.InScope f below ∧ w.AllInScope below

/-- The frames are in scope, and the objects under construction have been created. -/
structure WellScoped (w : World) : Prop where
  frames : w.AllInScope w.stack.frames
  building : ∀ o ∈ w.building, o.number ≤ w.objects.created

/-- A constructor that is chained to from a constructor runs for the same object. -/
def ChainsOwn (w : World) : Prop :=
  ∀ g, w.stack.current? = some g → g.kind = .ctor → w.building.head?.or g.object = g.object

/-- The class `k` is constructed for an object of that class, or for one that
strays, and constructors that are chained to are for the same object. -/
def Constructible (w : World) (o : ObjectId) (k : ClassId) : Prop :=
  (w.Kin o k ∨ o.number ≤ w.objects.created ∧ w.StraysFrom o w.stack.frames) ∧
    w.building.head?.or (some o) = some o

/-! ### Later worlds -/

theorem isA_of_growsTo {r r' : Registry} (h : r.GrowsTo r') {a b : ClassId} (hab : r.IsA a b) :
    r'.IsA a b := by
  obtain ⟨c, hc, hb⟩ := hab
  exact ⟨c, h.get? hc, hb⟩

theorem Kin.of_leadsTo {o : ObjectId} {k : ClassId} (h : w.Kin o k) (hleads : w.LeadsTo w') :
    w'.Kin o k := by
  obtain ⟨hnumber, hkin⟩ := h
  refine ⟨Nat.le_trans hnumber hleads.created, fun ob' hob' => ?_⟩
  obtain ⟨ob, hob, hcls, -⟩ := hleads.objects o ob' hnumber hob'
  rw [hcls]
  exact isA_of_growsTo hleads.registry (hkin ob hob)

theorem InScope.of_leadsTo {f : Frame} {below : List Frame} (h : w.InScope f below)
    (hleads : w.LeadsTo w') (hbuilding : w.building ⊆ w'.building) : w'.InScope f below := by
  intro hkind o ho
  rcases h hkind o ho with hkin | ⟨hconstructs, hnumber, hbuilt, hstrays⟩
  · exact Or.inl (hkin.of_leadsTo hleads)
  · exact Or.inr ⟨hconstructs, Nat.le_trans hnumber hleads.created, hbuilding hbuilt, hstrays⟩

theorem AllInScope.of_leadsTo {frames : List Frame} (h : w.AllInScope frames)
    (hleads : w.LeadsTo w') (hbuilding : w.building ⊆ w'.building) : w'.AllInScope frames := by
  induction frames with
  | nil => trivial
  | cons f below ih => exact ⟨h.1.of_leadsTo hleads hbuilding, ih h.2⟩

/-- With the same frames and the same objects under construction, the frames stay in
scope. -/
theorem WellScoped.of_leadsTo (h : w.WellScoped) (hleads : w.LeadsTo w')
    (hsame : w.SameFrames w') : w'.WellScoped := by
  refine ⟨?_, ?_⟩
  · rw [hsame.stack]
    exact h.frames.of_leadsTo hleads (by rw [hsame.building]; exact List.Subset.refl _)
  · rw [hsame.building]
    exact fun o ho => Nat.le_trans (h.building o ho) hleads.created

/-- Events that leave the frames as they are leave them in scope. -/
theorem WellScoped.always (h : w.WellScoped) {es : List Event}
    (hes : ∀ e ∈ es, ∀ v : World, v.SameFrames (v.after e)) : w.Always WellScoped es := by
  induction es generalizing w with
  | nil => exact always_nil.mpr h
  | cons e es ih =>
    rw [List.forall_mem_cons] at hes
    exact always_cons h (ih (h.of_leadsTo (leadsTo_after w e) (hes.1 w)) hes.2)

end World

/-! ### Tasks -/

/-- What a task needs in the world `w` so that its frames are in scope. -/
def Task.Fits (w : World) : Task → Prop
  | .frame f _ => w.InScope f w.stack.frames ∧
      (f.kind = .ctor → w.building.head?.or f.object = f.object)
  | .building o t => o.number ≤ w.objects.created ∧ t.Fits (w.after (.constructionBegun o))
  | .seq t next => t.Fits w ∧ next.Fits w
  | .guarded t _ | .chain t => t.Fits w
  | .construct o k => w.Constructible o k
  | .constructor o f => w.Constructible o f.owner
  | .destruct o k => w.Kin o k
  | .destructOnward o f => w.Kin o f.owner ∧ f.flags.isConstructor = false
  | .assign o v _ => w.Kin o v.owner
  | .code => w.ChainsOwn
  | .done | .create _ _ | .delete _ | .remove _ => True

section

variable {w w' : World} {t t' : Task} {evs es : List Event} {x : Outcome Unit}

theorem World.Constructible.of_leadsTo {o : ObjectId} {k : ClassId} (h : w.Constructible o k)
    (hleads : w.LeadsTo w') (hsame : w.SameFrames w') : w'.Constructible o k := by
  obtain ⟨hkin, hown⟩ := h
  unfold World.Constructible World.StraysFrom
  rw [hsame.stack, hsame.building]
  refine ⟨?_, hown⟩
  rcases hkin with hkin | ⟨hnumber, hstrays⟩
  · exact Or.inl (hkin.of_leadsTo hleads)
  · exact Or.inr ⟨Nat.le_trans hnumber hleads.created, hstrays⟩

/-- What a task needs it still has when other code has run. -/
theorem Task.Fits.of_leadsTo (h : t.Fits w) (hleads : w.LeadsTo w') (hsame : w.SameFrames w') :
    t.Fits w' := by
  induction t generalizing w w' with
  | frame f a =>
    obtain ⟨hscope, hown⟩ := h
    unfold Task.Fits
    rw [hsame.stack, hsame.building]
    exact ⟨hscope.of_leadsTo hleads (by rw [hsame.building]; exact List.Subset.refl _), hown⟩
  | building o t ih =>
    have hleads' : (w.after (.constructionBegun o)).LeadsTo (w'.after (.constructionBegun o)) :=
      ⟨hleads.registry, hleads.created, hleads.objects⟩
    exact ⟨Nat.le_trans h.1 hleads.created,
      ih h.2 hleads' ⟨hsame.stack, congrArg (o :: ·) hsame.building⟩⟩
  | seq t next ih ih' => exact ⟨ih h.1 hleads hsame, ih' h.2 hleads hsame⟩
  | guarded t u ih => exact ih h hleads hsame
  | chain t ih => exact ih h hleads hsame
  | construct o k => exact World.Constructible.of_leadsTo h hleads hsame
  | constructor o f => exact World.Constructible.of_leadsTo h hleads hsame
  | destruct o k => exact World.Kin.of_leadsTo h hleads
  | destructOnward o f => exact ⟨h.1.of_leadsTo hleads, h.2⟩
  | assign o v y => exact World.Kin.of_leadsTo h hleads
  | code =>
    intro g hg hkind
    rw [hsame.stack] at hg
    rw [hsame.building]
    exact h g hg hkind
  | done | create | delete | remove => trivial

theorem Task.fits_all {ts : List Task} (h : ∀ t ∈ ts, t.Fits w) : (Task.all ts).Fits w :=
  Task.all_of_forall trivial And.intro h

/-- A function that is no constructor does not run as one. -/
theorem MemberFunction.frameKind_ne_ctor {f : MemberFunction}
    (hf : f.flags.isConstructor = false) (object : Option ObjectId) :
    f.frameKind object ≠ .ctor := by
  unfold MemberFunction.frameKind
  rw [hf]
  split
  · exact nofun
  · simp only [Bool.false_eq_true, if_false]
    split
    · exact nofun
    · split <;> exact nofun

/-- Calling what is no constructor on an object of its class, or on none. -/
theorem Task.fits_call {f : MemberFunction} {object : Option ObjectId} {n : String}
    (hctor : f.flags.isConstructor = false) (hkin : ∀ o, object = some o → w.Kin o f.owner) :
    (Task.frame (f.callFrame object n) (.body f)).Fits w :=
  ⟨fun _ o ho => Or.inl (hkin o ho), fun hkind => (f.frameKind_ne_ctor hctor object hkind).elim⟩

/-- Running a part of a constructor where the class can be constructed. -/
theorem World.Constructible.fits_frame {o : ObjectId} {f : Frame} {a : Activity}
    (h : w.Constructible o f.scope) (hobject : f.object = some o) (hf : f.Constructs) :
    (Task.frame f a).Fits w := by
  obtain ⟨hkin, hown⟩ := h
  refine ⟨fun _ o' ho' => ?_, fun _ => by rw [hobject]; exact hown⟩
  rw [hobject, Option.some.injEq] at ho'
  subst ho'
  exact hkin.imp_right fun hstrays => ⟨hf, hstrays⟩

/-- Where a class can be constructed, so can its superclasses. -/
theorem World.Constructible.supers (hw : w.Sound) {o : ObjectId} {k : ClassId} {c : Class}
    (h : w.Constructible o k) (hc : w.registry.get? k = some c) :
    ∀ s ∈ c.supers, w.Constructible o s := by
  intro s hs
  obtain ⟨hkin, hown⟩ := h
  refine ⟨hkin.imp_left fun ⟨hnumber, hkin⟩ => ⟨hnumber, fun ob hob => ?_⟩, hown⟩
  have hsuper : w.registry.IsA k s :=
    (hw.built.isA_iff (by rw [hc]; rfl)).mpr (.single (Registry.inherits_of_mem_supers hc hs))
  exact hw.built.isA_trans (hkin ob hob) hsuper

/-- A live object is of every class in the heritage of its own. -/
theorem World.kin_of_get? (hw : w.Sound) {o : ObjectId} {ob : Object} {k : ClassId}
    (hob : w.objects.get? o = some ob) (hk : w.registry.IsA ob.cls k) : w.Kin o k := by
  refine ⟨hw.allocated o ob hob, fun ob' hob' => ?_⟩
  cases hob.symm.trans hob'
  exact hk

/-- Chaining leads to a class of the heritage of the object that the frame has. -/
theorem World.kin_of_chainTarget (hw : w.Sound) {g : Frame} {f : MemberFunction} {o : ObjectId}
    (hg : w.stack.current? = some g) (hf : chainTarget w = .ok (some f))
    (ho : g.object = some o) : w.Kin o f.owner := by
  obtain ⟨g', m, c, k, d, hg', -, -, -, hsubject, hk, hd, hfd⟩ := exists_of_chainTarget hf
  cases hg.symm.trans hg'
  rw [ho] at hsubject
  obtain ⟨ob, hob, hc⟩ := classOf_eq_ok_iff.mp hsubject
  obtain ⟨howner, -⟩ := hw.built.function?_spec hd hfd
  exact kin_of_get? hw hob ⟨c, hc, howner.symm ▸ hk⟩

/-- A constructor that is chained to runs for the chaining code's own object, unless
the chaining code strays. -/
theorem World.constructible_of_chainTarget (hw : w.Sound) (hscoped : w.WellScoped)
    (hown : w.ChainsOwn) {f : MemberFunction} {o : ObjectId}
    (hf : chainTarget w = .ok (some f)) (hctor : f.flags.isConstructor = true)
    (ho : w.chainObject? = some o) : w.Constructible o f.owner := by
  obtain ⟨g, m, c, k, d, hg, -, -, hm, -, -, hd, hfd⟩ := exists_of_chainTarget hf
  have ho : w.building.head?.or g.object = some o := by
    unfold chainObject? at ho
    rwa [hg, Option.bind_some] at ho
  have hkin (hobject : g.object = some o) : w.Kin o f.owner := kin_of_chainTarget hw hg hf hobject
  by_cases hkind : g.kind = .ctor
  · -- the chaining code is a constructor of the innermost object under construction
    have hobject : g.object = some o := (hown g hg hkind).symm.trans ho
    rw [hobject] at ho
    exact ⟨Or.inl (hkin hobject), ho⟩
  · cases hhead : w.building.head? with
    | none =>
      rw [hhead, Option.none_or] at ho
      refine ⟨Or.inl (hkin ho), ?_⟩
      rw [hhead]
      rfl
    | some b =>
      rw [hhead, Option.some_or, Option.some.injEq] at ho
      subst ho
      -- what is constructed is another object, so the chaining code strays
      have hbuilding : b ∈ w.building := List.mem_of_mem_head? hhead
      have hname : chainName m = constructorName := by
        obtain ⟨-, hname, howned⟩ := hw.built.function?_spec hd hfd
        rw [← hname]
        exact howned.name_of_constructor hctor
      have hframes : w.stack.frames = g :: w.stack.frames.tail := List.eq_cons_of_mem_head? hg
      refine ⟨Or.inr ⟨hscoped.building b hbuilding, hbuilding, g, _, hframes, hkind, m, hm,
        hname⟩, ?_⟩
      rw [hhead]
      rfl

/-- What running code takes up finds its object in the heritage, or strays. -/
theorem World.Available.fits (ht : w.Available t) (hw : w.Sound) (hscoped : w.WellScoped)
    (hown : w.ChainsOwn) : t.Fits w := by
  cases ht with
  | @method o ob c n f hob hc hf _ =>
    obtain ⟨hctor, -, hkin⟩ := hw.built.resolveFunction?_spec hc hf
    apply Task.fits_call hctor
    intro o' ho'
    split at ho'
    · cases ho'
    · cases ho'
      exact World.kin_of_get? hw hob hkin
  | procedure hc hf _ _ =>
    obtain ⟨hctor, -⟩ := hw.built.resolveFunction?_spec hc hf
    exact Task.fits_call hctor nofun
  | scope => exact ⟨fun hkind => absurd rfl hkind, nofun⟩
  | onward hg hf hctor _ =>
    apply Task.fits_call hctor
    intro o ho
    split at ho
    · cases ho
    · exact kin_of_chainTarget hw hg hf ho
  | constructOnward hf hctor ho => exact constructible_of_chainTarget hw hscoped hown hf hctor ho
  | destructOnward hg hf hctor _ ho => exact ⟨kin_of_chainTarget hw hg hf ho, hctor⟩
  | create | delete => trivial
  | assign ho hv =>
    refine ⟨ho, fun ob hob => ?_⟩
    obtain ⟨c, n, e, hc, hn, rfl⟩ := hv ob hob
    exact hw.built.resolveVar?_spec hc hn

/-- A new object is of the class in which it was created. -/
theorem World.kin_of_created (hw : w.Sound) (name : String) {cls : ClassId} {c : Class}
    (hc : w.registry.get? cls = some c) (es : List Event) :
    (w.replay (.objectCreated name cls :: es)).Kin w.objects.nextId cls := by
  have hkin : (w.after (.objectCreated name cls)).Kin w.objects.nextId cls := by
    refine ⟨Nat.le_refl _, fun ob hob => ?_⟩
    rcases cases_of_get?_after hob with ⟨_, hold, -⟩ | ⟨-, _, _, hevent, -, rfl⟩
    · exact absurd (hw.allocated _ _ hold) (Nat.not_succ_le_self _)
    · cases hevent
      exact (hw.built.isA_iff (by rw [hc]; rfl)).mpr .refl
  exact hkin.of_leadsTo (leadsTo_replay _ es)

theorem Task.Begins.fits (h : t.Begins w evs t') (hw : w.Sound) (ht : t.Fits w) :
    t'.Fits (w.replay evs) := by
  have hlater := ht.of_leadsTo (World.leadsTo_replay w evs) h.keeps
  have hsound := hw.replay h.admitsAll
  -- but for new objects, what the parts need is what the task needs, up the heritage
  cases h with
  | @create cls name c hc hfree =>
    have hkin := World.kin_of_created hw name hc
      (w.registry.initialValues w.objects.nextId c.heritage)
    exact ⟨⟨hkin.1, Or.inl hkin, rfl⟩, trivial⟩
  | constructed | constructorBegun | destructNone | destructed | destructorBegun | remove =>
    trivial
  | constructOwn _ _ hc hf =>
    obtain ⟨howner, -⟩ := hw.built.function?_spec hc hf
    show World.Constructible _ _ _
    rw [howner]
    exact ht
  | constructSupers _ _ hc _ =>
    apply Task.fits_all
    intro t ht
    obtain ⟨s, hs, rfl⟩ := List.mem_map.mp ht
    exact World.Constructible.supers hsound hlater hc s hs
  | @constructor o f _ c _ _ hc _ =>
    have hconstructible : (w.after (.constructorMarked o f.owner)).Constructible o f.owner := hlater
    refine ⟨?_, Task.fits_all fun t ht => ?_, ?_⟩
    · unfold MemberFunction.initialization
      cases f.initializer with
      | none => trivial
      | some code => exact hconstructible.fits_frame rfl (Or.inr rfl)
    · obtain ⟨s, hs, rfl⟩ := List.mem_map.mp ht
      exact hconstructible.supers hsound hc s hs
    · exact hconstructible.fits_frame rfl (Or.inl rfl)
  | @delete o ob c hob hc =>
    refine ⟨Task.fits_all fun t ht => ?_, trivial⟩
    obtain ⟨k, hk, rfl⟩ := List.mem_map.mp ht
    exact World.kin_of_get? hw hob ⟨c, hc, hk⟩
  | destruct _ _ hc hf =>
    obtain ⟨howner, -⟩ := hw.built.function?_spec hc hf
    apply Task.fits_call (hw.built.isConstructor_eq_false hc hf (by decide))
    intro o' ho'
    cases ho'
    rw [howner]
    exact hlater
  | destructOnward =>
    apply Task.fits_call hlater.2
    intro o' ho'
    split at ho'
    · cases ho'
    · cases ho'
      exact hlater.1
  | chain => exact hlater
  | @assign o v y ob _ =>
    unfold Variable.hooking
    cases v.hook with
    | none => trivial
    | some code =>
      refine ⟨⟨fun _ o' ho' => ?_, nofun⟩, trivial⟩
      cases ho'
      exact Or.inl hlater

/-- Leaving a frame is one further moment, unless the evaluation has stopped before it. -/
theorem Outcome.always_leaving {I : World → Prop} (x : Outcome Unit) (hw : I w)
    (hend : x ≠ .exhausted → I (w.replay x.leaving)) : w.Always I x.leaving := by
  cases x with
  | exhausted => exact World.always_nil.mpr hw
  | _ => exact World.always_cons hw (World.always_nil.mpr (hend nofun))

/-- So is ending a construction. -/
theorem Outcome.always_closing {I : World → Prop} (o : ObjectId) (x : Outcome Unit) (hw : I w)
    (hend : x ≠ .exhausted → I (w.replay (x.closing o))) : w.Always I (x.closing o) := by
  cases x with
  | exhausted => exact World.always_nil.mpr hw
  | _ => exact World.always_cons hw (World.always_nil.mpr (hend nofun))

/-- The frames are in scope at every moment of a course. -/
theorem Course.wellScoped (h : Course t w es x) (hw : w.Sound) (hscoped : w.WellScoped)
    (ht : t.Fits w) : w.Always World.WellScoped es := by
  have hlocal {v : World} {fs : List Event} (hv : v.WellScoped) (hfs : ∀ e ∈ fs, e.IsLocal) :
      v.Always World.WellScoped fs :=
    hv.always fun e he u => u.sameFrames_after (hfs e he)
  -- a course that comes to an end gives back the frames that it has found
  have hended {t : Task} {v : World} {fs : List Event} {y : Outcome Unit} (hv : v.WellScoped)
      (h : Course t v fs y) (hy : y ≠ .exhausted) : (v.replay fs).WellScoped :=
    hv.of_leadsTo (World.leadsTo_replay v fs) (h.keeps hy)
  induction h with
  | cut | done | gone | notCreated | idle => exact World.always_nil.mpr hscoped
  | @begins t t' w evs es x h _ ih =>
    have hevs : w.Always World.WellScoped evs := by
      rcases h.isLocal with hevs | ⟨cls, name, fs, rfl, -, -, hfs⟩
      · exact hlocal hscoped hevs
      · -- creating an object enters no frame either
        have hcreated : (w.after (.objectCreated name cls)).WellScoped :=
          hscoped.of_leadsTo (World.leadsTo_after _ _) ⟨rfl, rfl⟩
        exact World.always_cons hscoped (hlocal hcreated hfs)
    exact World.always_append hevs (ih (hw.replay h.admitsAll) hevs.last (h.fits hw ht))
  | refused => exact World.always_cons hscoped (World.always_nil.mpr hscoped)
  | @frame w f a es x hroom h ih =>
    have hleads := World.leadsTo_after w (.entered f a)
    have hentered : (w.after (.entered f a)).WellScoped :=
      ⟨⟨ht.1.of_leadsTo hleads (List.Subset.refl _),
        hscoped.frames.of_leadsTo hleads (List.Subset.refl _)⟩, hscoped.building⟩
    have hown : (w.after (.entered f a)).ChainsOwn := by
      intro g hg hkind
      cases hg
      exact ht.2 hkind
    have hinner := ih (hw.after hroom) hentered hown
    refine World.always_cons hscoped (World.always_append hinner
      (x.always_leaving hinner.last fun hx => ?_))
    have hend := hended hscoped (.frame hroom h) hx
    rwa [World.replay_cons, World.replay_append] at hend
  | @building o t w es x h ih =>
    have hleads := World.leadsTo_after w (.constructionBegun o)
    have hbegun : (w.after (.constructionBegun o)).WellScoped := by
      refine ⟨hscoped.frames.of_leadsTo hleads (List.subset_cons_self _ _), ?_⟩
      exact List.forall_mem_cons.mpr ⟨ht.1, hscoped.building⟩
    have hinner := ih (hw.after trivial) hbegun ht.2
    refine World.always_cons hscoped (World.always_append hinner
      (x.always_closing o hinner.last fun hx => ?_))
    have hend := hended hscoped (.building h) hx
    rwa [World.replay_cons, World.replay_append] at hend
  | seq h _ ih ih' =>
    have hfirst := ih hw hscoped ht.1
    refine World.always_append hfirst (ih' (h.sound hw) hfirst.last ?_)
    exact ht.2.of_leadsTo (World.leadsTo_replay _ _) (h.keeps nofun)
  | andThen h _ ih ih' =>
    have hfirst := ih hw hscoped ht
    refine World.always_append hfirst (ih' (h.sound hw) hfirst.last ?_)
    exact ht.of_leadsTo (World.leadsTo_replay _ _) (h.keeps nofun)
  | seqStop _ _ ih => exact ih hw hscoped ht.1
  | guarded _ _ ih | ends _ _ _ ih => exact ih hw hscoped ht
  | undone _ _ ih =>
    have hfirst := ih hw hscoped ht
    exact World.always_append hfirst
      (hlocal hfirst.last fun _ he => Undo.isLocal_of_mem_events he)
  | plain he hplain =>
    exact World.always_cons hscoped (World.always_nil.mpr
      (hended hscoped (.plain he hplain) nofun))
  | task havailable _ ih => exact ih hw hscoped (havailable.fits hw hscoped ht)

end

/-! ### Sessions -/

theorem World.AllInScope.inScope {w : World} {inner below : List Frame} {f : Frame}
    (h : w.AllInScope (inner ++ f :: below)) : w.InScope f below := by
  induction inner with
  | nil => exact h.1
  | cons g inner ih => exact ih h.2

theorem Session.Reachable.wellScoped {o : EngineOptions} {w : World}
    (hw : Session.Reachable o w) : w.WellScoped := by
  obtain ⟨loads, v, e, k, hv, rfl⟩ := hw
  obtain ⟨hframes, hbuilding⟩ := hv.frames_eq
  have hsound := hv.reachable.sound
  -- between the steps there are no frames, so there is nothing to show
  have hscoped : v.WellScoped := by
    refine ⟨?_, ?_⟩
    · rw [hframes]
      trivial
    · rw [hbuilding]
      exact nofun
  have hown : v.ChainsOwn := by
    intro g hg
    unfold CallStack.current? at hg
    rw [hframes] at hg
    cases hg
  exact (Session.step_course hsound loads e).1.wellScoped hsound hscoped hown k

/-- **The class of a frame is in the heritage of its object's class**, at every
moment of a session, for every frame of a member that has a live object.  The one
exception are frames that run as constructors for an object under construction
because the frame below them chains to constructors and is none. -/
theorem scope_of_frame {o : EngineOptions} {w : World} (hw : Session.Reachable o w)
    {inner below : List Frame} {f : Frame} (hframes : w.stack.frames = inner ++ f :: below)
    (hkind : f.kind ≠ .eval) {id : ObjectId} {ob : Object} (hobject : f.object = some id)
    (hob : w.objects.get? id = some ob) :
    w.registry.IsA ob.cls f.scope ∨
      f.Constructs ∧ id ∈ w.building ∧ ∃ g rest, below = g :: rest ∧ g.Strays := by
  have hscoped := hw.wellScoped.frames
  rw [hframes] at hscoped
  rcases hscoped.inScope hkind id hobject with hkin | ⟨hconstructs, -, hbuilding, hstrays⟩
  · exact Or.inl (hkin.2 ob hob)
  · exact Or.inr ⟨hconstructs, hbuilding, hstrays⟩

/-- Defines an account with a constructor; a savings account whose method
`constructor` chains to it; and a door, which when constructed calls that method of
the savings account `s`. -/
def accounts : Expr :=
  .sequence [
    .defineClass { name := "Account", members := [.ctor none (.log (.const (.str "account")))] },
    .defineClass
      { name := "Savings", inherits := ["Account"]
        members := [.method "constructor" .pub (.chain [])] },
    .defineClass
      { name := "Door"
        members :=
          [.ctor none (.invoke (some (.const (.str "s"))) (.const (.str "constructor")) [])] },
    .create (some (.const (.str "Savings"))) (.const (.str "s")) []]

/-- The world with the savings account. -/
def accountsWorld : World := (Session.step 0 (World.initial {}) accounts).2.world

/-- Creates a door. -/
def createDoor : Expr := .create (some (.const (.str "Door"))) (.const (.str "d")) []

/-- The world in which the constructor of accounts has begun to run on the door. -/
def strayWorld : World :=
  accountsWorld.replay ((Session.step 0 accountsWorld createDoor).2.journal.reverse.take 8)

theorem strayWorld_reachable : Session.Reachable {} strayWorld :=
  ⟨0, accountsWorld, createDoor, 8, .next accounts .start (by decide +kernel), rfl⟩

/-- The frames of that world, innermost first: the constructor of accounts on the
door, the method of the savings account, and the constructor of doors. -/
def strayFrames : List Frame :=
  [{ scope := ⟨0⟩, object := some ⟨2⟩, member := some constructorName, kind := .ctor },
    { scope := ⟨1⟩, object := some ⟨1⟩, member := some constructorName, kind := .method },
    { scope := ⟨2⟩, object := some ⟨2⟩, member := some constructorName, kind := .ctor }]

theorem frames_of_strayWorld : strayWorld.stack.frames = strayFrames := by decide +kernel

theorem exists_door : ∃ ob, strayWorld.objects.get? ⟨2⟩ = some ob ∧ ob.cls = ⟨2⟩ := by
  have hdoor : (strayWorld.objects.get? ⟨2⟩).map (·.cls) = some ⟨2⟩ := by decide +kernel
  exact Option.map_eq_some_iff.mp hdoor

theorem not_isA_account : ¬ strayWorld.registry.IsA ⟨2⟩ ⟨0⟩ := by
  rintro ⟨c, hc, hmem⟩
  have hheritage : (strayWorld.registry.get? ⟨2⟩).map (·.heritage) = some [⟨2⟩] := by
    decide +kernel
  rw [hc, Option.map_some, Option.some.injEq] at hheritage
  rw [hheritage] at hmem
  exact absurd hmem (by decide)

/-- Not all frames are in scope: a door is no account. -/
theorem exists_frame_out_of_scope :
    ¬ ∀ (o : EngineOptions) (w : World), Session.Reachable o w → ∀ f ∈ w.stack.frames,
      f.kind ≠ .eval → ∀ id ob, f.object = some id → w.objects.get? id = some ob →
        w.registry.IsA ob.cls f.scope := by
  intro h
  obtain ⟨ob, hob, hcls⟩ := exists_door
  have hmem : strayFrames.head (by decide) ∈ strayWorld.stack.frames := by
    rw [frames_of_strayWorld]
    exact List.head_mem _
  have hdoor := h {} strayWorld strayWorld_reachable _ hmem (by decide) ⟨2⟩ ob rfl hob
  rw [hcls] at hdoor
  exact not_isA_account hdoor

/-- The constructor of accounts has strayed, because the method below it runs on
another object; the constructor of doors has not. -/
theorem scopes_of_strayWorld :
    ¬ strayWorld.registry.IsA ⟨2⟩ ⟨0⟩ ∧
    (∃ g rest, strayFrames.tail = g :: rest ∧ g.Strays) ∧
    strayWorld.registry.IsA ⟨2⟩ ⟨2⟩ := by
  obtain ⟨ob, hob, hcls⟩ := exists_door
  have hframes (inner : List Frame) (f : Frame) (below : List Frame)
      (h : strayFrames = inner ++ f :: below) :
      strayWorld.stack.frames = inner ++ f :: below :=
    frames_of_strayWorld.trans h
  have htop := scope_of_frame strayWorld_reachable (hframes [] _ strayFrames.tail rfl) (by decide)
    rfl hob
  have hbottom := scope_of_frame strayWorld_reachable
    (hframes (strayFrames.take 2) _ [] rfl) (by decide) rfl hob
  rw [hcls] at htop hbottom
  refine ⟨not_isA_account, ?_, ?_⟩
  · rcases htop with haccount | ⟨-, -, hstrays⟩
    · exact (not_isA_account haccount).elim
    · exact hstrays
  · rcases hbottom with hdoor | ⟨-, -, g, rest, hnone, -⟩
    · exact hdoor
    · cases hnone

end ObjectDispatch
