import ObjectDispatch.Proofs.Conditions
import ObjectDispatch.Proofs.History

/-!
# Constructors run once

A constructor runs in up to two frames, one for its initializer and one for its
body.  Before either of them begins, the class is marked as constructed for the
object, and each mark is followed by at most one run of either part.  A mark is
only set where it was not set before, it is never taken back, and an object that
is gone does not come back; so each class is marked at most once for an object, in
the whole history of a session, and its constructor starts at most once.

## Main definitions

* `ConstructorPart`, `Event.starts` — the start of a part of a constructor.
* `Event.marks` — the mark of a class.
* `Task.pending` — the starts whose mark has been set already.

## Main results

* `Course.starts_le_marks` — no part starts more often than its class is marked.
* `Course.marks_le_one` — a class is marked once.
* `constructor_starts_once` — **in a session each constructor starts at most once
  for each object.**
-/

namespace ObjectDispatch

/-! ### Starts and marks -/

/-- The parts of a constructor that run in frames of their own. -/
inductive ConstructorPart where
  /-- What runs before the superclasses are constructed. -/
  | initializer : ConstructorPart
  /-- What runs after them. -/
  | body : ConstructorPart
  deriving DecidableEq, Repr

/-- The part of a constructor that runs, and the class of the constructor.  A
function called `constructor` that was not declared as one is none. -/
def Activity.part? : Activity → Option (ConstructorPart × ClassId)
  | .body f => if f.flags.isConstructor then some (.body, f.owner) else none
  | .initializer f _ => some (.initializer, f.owner)
  | .hook _ _ | .scoped _ => none

/-- A part of the constructor of the class `k` starts for the object `o`. -/
def Event.starts (p : ConstructorPart) (k : ClassId) (o : ObjectId) : Event → Bool
  | .entered f a => f.object = some o && a.part? = some (p, k)
  | _ => false

/-- The class `k` is marked as constructed for the object `o`. -/
def Event.marks (k : ClassId) (o : ObjectId) : Event → Bool
  | .constructorMarked o' k' => o' = o && k' = k
  | _ => false

theorem Event.marks_iff {k : ClassId} {o : ObjectId} {e : Event} :
    e.marks k o = true ↔ e = .constructorMarked o k := by
  cases e <;> simp [marks]

theorem countP_marks_eq_zero {k : ClassId} {o : ObjectId} {es : List Event}
    (h : .constructorMarked o k ∉ es) : es.countP (·.marks k o) = 0 :=
  List.countP_eq_zero.mpr fun _ he hmarks => h (Event.marks_iff.mp hmarks ▸ he)

section

variable (p : ConstructorPart) (k : ClassId) (o : ObjectId)

/-- The starts that are still to come in a task whose class has been marked before
it. -/
def Task.pending : Task → Nat
  | .frame f a => if (Event.entered f a).starts p k o then 1 else 0
  | .building _ t | .guarded t _ | .chain t => t.pending
  | .seq t next => t.pending + next.pending
  | .destructOnward o' f =>
      if (Event.entered (f.callFrame (if f.flags.isCommon then none else some o') f.fullName)
        (.body f)).starts p k o then 1 else 0
  | _ => 0

/-! ### No start without a mark -/

variable {p k o}

theorem Event.starts_entered_eq_false {f : Frame} {a : Activity} (ha : a.part? = none) :
    (Event.entered f a).starts p k o = false := by
  simp [starts, ha]

theorem pending_frame_eq_zero {f : Frame} {a : Activity} (ha : a.part? = none) :
    (Task.frame f a).pending p k o = 0 :=
  if_neg (by simp [Event.starts_entered_eq_false ha])

theorem Activity.part?_body_eq_none {f : MemberFunction} (hf : f.flags.isConstructor = false) :
    (Activity.body f).part? = none := by
  simp [part?, hf]

theorem Activity.of_part?_body {f : MemberFunction} {q : ConstructorPart} {i : ClassId}
    (h : (Activity.body f).part? = some (q, i)) : q = .body ∧ i = f.owner := by
  unfold part? at h
  dsimp only at h
  split at h
  · simp only [Option.some.injEq, Prod.mk.injEq] at h
    exact ⟨h.1.symm, h.2.symm⟩
  · cases h

theorem pending_all_eq_zero {ts : List Task} (h : ∀ t ∈ ts, t.pending p k o = 0) :
    (Task.all ts).pending p k o = 0 :=
  Task.all_of_forall (P := fun t => t.pending p k o = 0) rfl
    (fun hfirst hnext => Nat.add_eq_zero_iff.mpr ⟨hfirst, hnext⟩) h

/-- Constructing a class is marked first. -/
theorem pending_all_construct (o' : ObjectId) (ks : List ClassId) :
    (Task.all (ks.map (.construct o'))).pending p k o = 0 :=
  pending_all_eq_zero (by simp [Task.pending])

theorem pending_all_destruct (o' : ObjectId) (ks : List ClassId) :
    (Task.all (ks.map (.destruct o'))).pending p k o = 0 :=
  pending_all_eq_zero (by simp [Task.pending])

theorem Variable.pending_hooking (v : Variable) (o' : ObjectId) (previous : Option Value) :
    (v.hooking o' previous).pending p k o = 0 := by
  unfold hooking
  cases v.hook with
  | none => rfl
  | some code => exact pending_all_eq_zero (by simp [Task.pending, Event.starts, Activity.part?])

/-- What code can take up is marked first, if it constructs anything. -/
theorem World.Available.pending_eq_zero {w : World} (hw : w.Sound) {t : Task}
    (ht : w.Available t) : t.pending p k o = 0 := by
  cases ht with
  | method _ hc hf _ | procedure hc hf _ _ =>
    have hctor := (hw.built.resolveFunction?_spec hc hf).1
    exact pending_frame_eq_zero (Activity.part?_body_eq_none hctor)
  | scope => exact pending_frame_eq_zero rfl
  | onward _ _ hctor _ | destructOnward _ _ hctor _ _ =>
    exact pending_frame_eq_zero (Activity.part?_body_eq_none hctor)
  | constructOnward | create | delete | assign => rfl

theorem countP_starts_of_isLocal {es : List Event} (h : ∀ e ∈ es, e.IsLocal) :
    es.countP (·.starts p k o) = 0 := by
  apply List.countP_eq_zero.mpr
  intro e he
  cases e with
  | entered => exact (h _ he).elim
  | _ => simp [Event.starts]

theorem Task.Begins.countP_starts {w : World} {t t' : Task} {evs : List Event}
    (h : t.Begins w evs t') : evs.countP (·.starts p k o) = 0 := by
  rcases h.isLocal with hlocal | ⟨cls, name, es, rfl, -, -, hlocal⟩
  · exact countP_starts_of_isLocal hlocal
  · rw [List.countP_cons, countP_starts_of_isLocal hlocal]
    rfl

theorem countP_starts_frame (f : Frame) (a : Activity) (es : List Event) (x : Outcome Unit) :
    (Event.entered f a :: (es ++ x.leaving)).countP (·.starts p k o) =
      es.countP (·.starts p k o) + (Task.frame f a).pending p k o := by
  have hleft : x.leaving.countP (·.starts p k o) = 0 := by cases x <;> rfl
  rw [List.countP_cons, List.countP_append, hleft]
  rfl

theorem countP_marks_frame (f : Frame) (a : Activity) (es : List Event) (x : Outcome Unit) :
    (Event.entered f a :: (es ++ x.leaving)).countP (·.marks k o) = es.countP (·.marks k o) := by
  have hleft : x.leaving.countP (·.marks k o) = 0 := by cases x <;> rfl
  rw [List.countP_cons, List.countP_append, hleft]
  rfl

theorem countP_starts_building (o' : ObjectId) (es : List Event) (x : Outcome Unit) :
    (Event.constructionBegun o' :: (es ++ x.closing o')).countP (·.starts p k o) =
      es.countP (·.starts p k o) := by
  have hclosed : (x.closing o').countP (·.starts p k o) = 0 := by cases x <;> rfl
  rw [List.countP_cons, List.countP_append, hclosed]
  rfl

theorem countP_marks_building (o' : ObjectId) (es : List Event) (x : Outcome Unit) :
    (Event.constructionBegun o' :: (es ++ x.closing o')).countP (·.marks k o) =
      es.countP (·.marks k o) := by
  have hclosed : (x.closing o').countP (·.marks k o) = 0 := by cases x <;> rfl
  rw [List.countP_cons, List.countP_append, hclosed]
  rfl

/-- A frame for the object and the class of a mark can start what the mark is for. -/
theorem pending_frame_le {f : Frame} {a : Activity} {o' : ObjectId} {k' : ClassId}
    (hf : f.object = some o') (ha : ∀ q i, a.part? = some (q, i) → i = k') :
    (Task.frame f a).pending p k o ≤ [Event.constructorMarked o' k'].countP (·.marks k o) := by
  unfold Task.pending
  split
  · next hstarts =>
    simp only [Event.starts, Bool.and_eq_true, decide_eq_true_eq, hf, Option.some.injEq]
      at hstarts
    obtain ⟨rfl, hpart⟩ := hstarts
    obtain rfl := ha p k hpart
    simp [Event.marks]
  · exact Nat.zero_le _

/-- An initializer does not start a body. -/
theorem MemberFunction.pending_body_initialization (f : MemberFunction) (o' : ObjectId) :
    (f.initialization o').pending .body k o = 0 := by
  unfold initialization
  cases f.initializer with
  | none => rfl
  | some code => exact if_neg (by simp [Event.starts, Activity.part?])

/-- The initializer and the body are different parts. -/
theorem pending_initialization_add_le (f : MemberFunction) (o' : ObjectId) (n : String) :
    (f.initialization o').pending p k o +
        (Task.frame (f.callFrame (some o') n) (.body f)).pending p k o ≤
      [Event.constructorMarked o' f.owner].countP (·.marks k o) := by
  have hbody : (Task.frame (f.callFrame (some o') n) (.body f)).pending p k o ≤
      [Event.constructorMarked o' f.owner].countP (·.marks k o) :=
    pending_frame_le rfl fun q i h => (Activity.of_part?_body h).2
  unfold MemberFunction.initialization
  cases hinit : f.initializer with
  | none =>
    show 0 + _ ≤ _
    rw [Nat.zero_add]
    exact hbody
  | some code =>
    have hinitializer : (Task.frame (f.initializerFrame o') (.initializer f code)).pending p k o ≤
        [Event.constructorMarked o' f.owner].countP (·.marks k o) := by
      apply pending_frame_le rfl
      intro q i h
      cases h
      rfl
    -- of the two frames, the one that runs the other part starts nothing of this one
    cases p with
    | initializer =>
      have hnone :
          (Task.frame (f.callFrame (some o') n) (.body f)).pending .initializer k o = 0 := by
        apply if_neg
        intro hstarts
        simp only [Event.starts, Bool.and_eq_true, decide_eq_true_eq] at hstarts
        cases (Activity.of_part?_body hstarts.2).1
      rw [hnone]
      exact hinitializer
    | body =>
      have hnone : (Task.frame (f.initializerFrame o') (.initializer f code)).pending .body k o =
          0 := by
        apply if_neg
        intro hstarts
        simp [Event.starts, Activity.part?] at hstarts
      show _ + _ ≤ _
      rw [hnone, Nat.zero_add]
      exact hbody

/-- A part of a constructor is only to come once its class has been marked. -/
theorem Task.Begins.pending_le {w : World} (hw : w.Sound) {t t' : Task} {evs : List Event}
    (h : t.Begins w evs t') :
    t'.pending p k o ≤ t.pending p k o + evs.countP (·.marks k o) := by
  -- parts come to be pending where a constructor begins, which is where its class is marked
  cases h with
  | create | constructed | constructOwn | constructorBegun | destructNone | destructed
  | destructorBegun | remove => exact Nat.zero_le _
  | constructSupers =>
    rw [pending_all_construct]
    exact Nat.zero_le _
  | @constructor o' f ob c =>
    have hparts := pending_initialization_add_le (p := p) (k := k) (o := o) f o' constructorName
    show _ + (_ + _) ≤ 0 + _
    rw [pending_all_construct, Nat.zero_add, Nat.zero_add]
    exact hparts
  | @delete o' ob c =>
    show _ + 0 ≤ _
    rw [pending_all_destruct]
    exact Nat.zero_le _
  | @destruct o' k' ob c f _ _ hc hf =>
    have hctor := hw.built.isConstructor_eq_false hc hf (by decide)
    show Task.pending p k o (.frame _ _) ≤ _
    rw [pending_frame_eq_zero (Activity.part?_body_eq_none hctor)]
    exact Nat.zero_le _
  | destructOnward | chain => exact Nat.le_add_right _ _
  | @assign o' v x ob =>
    rw [v.pending_hooking]
    exact Nat.zero_le _

/-- No part of a constructor starts more often than its class is marked, apart from
the starts whose mark was set before. -/
theorem Course.starts_le_marks {t : Task} {w : World} {es : List Event} {x : Outcome Unit}
    (h : Course t w es x) (hw : w.Sound) :
    es.countP (·.starts p k o) ≤ es.countP (·.marks k o) + t.pending p k o := by
  induction h with
  | cut | done | gone | notCreated | idle => exact Nat.zero_le _
  | begins h _ ih =>
    have hstarts := h.countP_starts (p := p) (k := k) (o := o)
    have hpending := h.pending_le (p := p) (k := k) (o := o) hw
    have hrest := ih (hw.replay h.admitsAll)
    rw [List.countP_append, List.countP_append]
    omega
  | refused => exact Nat.zero_le _
  | frame hroom _ ih =>
    -- running code has no part of a constructor to come
    have hinner : _ ≤ _ + 0 := ih (hw.after hroom)
    rw [countP_starts_frame, countP_marks_frame]
    omega
  | building _ ih =>
    rw [countP_starts_building, countP_marks_building]
    exact ih (hw.after trivial)
  | seq h _ ih ih' =>
    have hfirst := ih hw
    have hrest := ih' (h.sound hw)
    rw [List.countP_append, List.countP_append]
    unfold Task.pending
    omega
  | andThen h _ ih ih' =>
    have hfirst : _ ≤ _ + 0 := ih hw
    have hrest : _ ≤ _ + 0 := ih' (h.sound hw)
    rw [List.countP_append, List.countP_append]
    omega
  | seqStop _ _ ih => exact Nat.le_trans (ih hw) (Nat.add_le_add_left (Nat.le_add_right _ _) _)
  | guarded _ _ ih | ends _ _ _ ih => exact ih hw
  | undone _ h ih =>
    have hfirst := ih hw
    rw [List.countP_append, List.countP_append,
      countP_starts_of_isLocal fun e he => Undo.isLocal_of_mem_events he]
    unfold Task.pending
    omega
  | @plain w e _ hplain =>
    have hnone : [e].countP (·.starts p k o) = 0 := by
      cases e <;> first | rfl | exact hplain.elim
    rw [hnone]
    exact Nat.zero_le _
  | task ht _ ih =>
    have hnone := ht.pending_eq_zero (p := p) (k := k) (o := o) hw
    have hrest := ih hw
    rw [hnone] at hrest
    exact hrest

end

/-! ### No mark twice -/

/-- A mark is set on a live object that does not have it. -/
def World.MarksAnew (w : World) (e : Event) : Prop :=
  ∀ o k, e = .constructorMarked o k →
    ∃ ob, w.objects.get? o = some ob ∧ ob.isConstructed k = false

section

variable {k : ClassId} {o : ObjectId} {w : World}

theorem World.marksAnew_of_ne {e : Event} (he : ∀ o k, e ≠ .constructorMarked o k) :
    w.MarksAnew e :=
  fun o k h => (he o k h).elim

theorem Task.Begins.marksAnew {t t' : Task} {evs : List Event} (h : t.Begins w evs t') :
    w.Each World.MarksAnew evs := by
  by_cases hmark : ∃ o k, .constructorMarked o k ∈ evs
  · obtain ⟨o, k, hmark⟩ := hmark
    obtain ⟨rfl, ob, _, hob, hk, -⟩ := h.of_mem_constructorMarked hmark
    refine ⟨fun o' k' he => ?_, trivial⟩
    cases he
    exact ⟨ob, hob, hk⟩
  · refine World.each_of_forall fun e he _ => World.marksAnew_of_ne fun o k hmarked => hmark ?_
    exact ⟨o, k, hmarked ▸ he⟩

/-- It is only in what tasks begin with that classes are marked. -/
theorem Task.observes_marksAnew :
    Task.Observes (fun _ _ _ => True) (fun v _ => v.MarksAnew) where
  incidental he := World.marksAnew_of_ne he.ne_constructorMarked
  begins _ _ h := ⟨World.eachSince_iff_each.mpr h.marksAnew, trivial⟩
  entered _ := World.marksAnew_of_ne nofun
  building _ := trivial
  seq _ := ⟨trivial, fun _ => trivial⟩
  guarded _ := trivial
  code _ _ := trivial
  available _ _ := trivial

/-- The marks of a course are set where they were not set before. -/
theorem Course.marksAnew {t : Task} {es : List Event} {x : Outcome Unit}
    (h : Course t w es x) (hw : w.Sound) : w.Each World.MarksAnew es :=
  h.each Task.observes_marksAnew hw trivial

/-- The object is marked, or it is gone for good. -/
def World.Settled (w : World) (k : ClassId) (o : ObjectId) : Prop :=
  o.number ≤ w.objects.created ∧
    ∀ ob, w.objects.get? o = some ob → ob.isConstructed k = true

/-- What is settled stays so. -/
theorem World.Settled.after (h : w.Settled k o) (e : Event) : (w.after e).Settled k o := by
  obtain ⟨hnumber, hmarked⟩ := h
  have hleads := World.leadsTo_after w e
  refine ⟨Nat.le_trans hnumber hleads.created, fun ob' hob' => ?_⟩
  obtain ⟨ob, hob, -, hsubset⟩ := hleads.objects o ob' hnumber hob'
  have hbefore := hmarked ob hob
  unfold Object.isConstructed at hbefore ⊢
  rw [List.contains_iff_mem] at hbefore ⊢
  exact hsubset hbefore

theorem World.Settled.replay (h : w.Settled k o) (es : List Event) : (w.replay es).Settled k o := by
  induction es generalizing w with
  | nil => exact h
  | cons e es ih => exact ih (h.after e)

theorem World.settled_of_marked (hw : w.Sound) {ob : Object} (hob : w.objects.get? o = some ob) :
    (w.after (.constructorMarked o k)).Settled k o := by
  refine ⟨hw.allocated o ob hob, fun ob' hob' => ?_⟩
  cases (get?_after_of_get? (e := .constructorMarked o k) hob nofun).symm.trans hob'
  exact (Event.isConstructed_change _ o ob k).mpr (Or.inr rfl)

theorem World.Settled.countP_marks {es : List Event} (h : w.Settled k o)
    (hes : w.Each World.MarksAnew es) : es.countP (·.marks k o) = 0 := by
  induction es generalizing w with
  | nil => rfl
  | cons e es ih =>
    obtain ⟨he, hes⟩ := hes
    rw [List.countP_cons_of_neg, ih (h.after e) hes]
    intro hmarks
    obtain ⟨ob, hob, hk⟩ := he o k (Event.marks_iff.mp hmarks)
    rw [h.2 ob hob] at hk
    cases hk

/-- A class is settled once it has been marked. -/
theorem Course.settled_of_mem {t : Task} {es : List Event} {x : Outcome Unit}
    (h : Course t w es x) (hw : w.Sound) (hmark : .constructorMarked o k ∈ es) :
    (w.replay es).Settled k o := by
  have hadmitted := h.admitsAll
  have hanew := h.marksAnew hw
  clear h
  induction es generalizing w with
  | nil => cases hmark
  | cons e es ih =>
    rcases List.mem_cons.mp hmark with rfl | hmark
    · obtain ⟨ob, hob, -⟩ := hanew.1 o k rfl
      exact (World.settled_of_marked hw hob).replay es
    · exact ih (hw.after hadmitted.1) hmark hadmitted.2 hanew.2

/-- Where a class is settled, a part of its constructor starts only if it was to come. -/
theorem Course.countP_starts_of_settled {p : ConstructorPart} {t : Task} {es : List Event}
    {x : Outcome Unit} (h : Course t w es x) (hw : w.Sound) (hsettled : w.Settled k o)
    (ht : t.pending p k o = 0) : es.countP (·.starts p k o) = 0 := by
  have hle := h.starts_le_marks (p := p) (k := k) (o := o) hw
  rw [hsettled.countP_marks (h.marksAnew hw), ht] at hle
  exact Nat.le_zero.mp hle

/-- A class is marked once. -/
theorem Course.marks_le_one {t : Task} {es : List Event} {x : Outcome Unit}
    (h : Course t w es x) (hw : w.Sound) : es.countP (·.marks k o) ≤ 1 := by
  have hadmitted := h.admitsAll
  have hanew := h.marksAnew hw
  clear h
  induction es generalizing w with
  | nil => exact Nat.zero_le _
  | cons e es ih =>
    obtain ⟨he, hanew⟩ := hanew
    rw [List.countP_cons]
    split
    · next hmarks =>
      -- after this mark there is no other
      obtain rfl := Event.marks_iff.mp hmarks
      obtain ⟨ob, hob, -⟩ := he o k rfl
      rw [(World.settled_of_marked hw hob).countP_marks hanew]
    · exact ih (hw.after hadmitted.1) hadmitted.2 hanew

end

/-! ### Sessions -/

/-- **In a session each constructor starts at most once for each object**: its
initializer and its body, whatever else happens in the session. -/
theorem constructor_starts_once (loads : Nat) (o : EngineOptions) (es : List Expr) (k : ClassId)
    (id : ObjectId) :
    (Session.history loads (World.initial o) es).countP (·.starts .initializer k id) ≤ 1 ∧
    (Session.history loads (World.initial o) es).countP (·.starts .body k id) ≤ 1 := by
  have hinitial := World.sound_initial o
  obtain ⟨x, hcourse⟩ := Session.history_course hinitial loads es
  have hmarks : (Session.history loads (World.initial o) es).countP (·.marks k id) ≤ 1 :=
    hcourse.marks_le_one hinitial
  have hstarts (p : ConstructorPart) :
      (Session.history loads (World.initial o) es).countP (·.starts p k id) ≤
        (Session.history loads (World.initial o) es).countP (·.marks k id) + 0 :=
    hcourse.starts_le_marks hinitial
  exact ⟨Nat.le_trans (hstarts .initializer) hmarks, Nat.le_trans (hstarts .body) hmarks⟩

end ObjectDispatch
