import ObjectDispatch.Proofs.Calls
import ObjectDispatch.Proofs.Creation
import ObjectDispatch.Proofs.HookFailures
import ObjectDispatch.Proofs.Postorder
import ObjectDispatch.Proofs.Unchained

/-!
# The order in which constructors run

Construction is a traversal of the superclasses: the visit of a class begins with the
initializer of its constructor and ends with the body.  A class is marked when its visit
begins, and marks are what tells that a class has been visited.  As long as code does not
chain, nothing else marks a class of the new object, so that the marks are those of the
traversal: the initializers run in heritage order, and the bodies in postorder.

The arguments of the creation go to the constructor of the class itself; the constructors
of the other classes get none.

## Main definitions

* `ConstructorCall` — a part of a constructor, called with arguments.
* `CallsMade` — calls that are made one after the other, and nothing else but marks.
* `Constructing` — a state in which the marks of an object are known.
* `Registry.initializerCall?`, `Registry.bodyCall?` — the calls for a class.
* `ConstructsInOrder` — the calls for all classes of a heritage.

## Main results

* `constructClass_traversed` — construction makes the calls of a traversal.
* `CallsMade.starts_eq` — the calls that are made are all the starts there are.
* `World.stored_prepared` — the variables of a new object have their initial values.
* `construction_of_object` — **the order in which constructors run.**
-/

namespace ObjectDispatch

/-! ### Calls -/

/-- A part of a constructor, called with arguments. -/
structure ConstructorCall where
  /-- Which part. -/
  part : ConstructorPart
  /-- The constructor. -/
  function : MemberFunction
  /-- What it gets. -/
  args : List Value

namespace ConstructorCall

/-- Making the call for an object. -/
def run (enter : Enter) (o : ObjectId) (call : ConstructorCall) : Run Unit :=
  match call.part with
  | .initializer => runInitializer enter call.function o call.args
  | .body => callMember enter call.function (some o) constructorName call.args >>= fun _ => pure ()

/-- The start of the call. -/
def start (call : ConstructorCall) : ConstructorPart × ClassId := (call.part, call.function.owner)

/-- The constructor was declared as one, and it has the part. -/
def IsDeclared (call : ConstructorCall) : Prop :=
  call.function.flags.isConstructor = true ∧
    (call.part = .initializer → call.function.initializer.isSome)

end ConstructorCall

/-- From one state to the other, the calls are made one after the other, each of them
returns, and nothing else happens but that classes of the object are marked. -/
inductive CallsMade (enter : Enter) (o : ObjectId) : List ConstructorCall → State → State → Prop
  | nil (s : State) : CallsMade enter o [] s s
  | mark {k : ClassId} {calls : List ConstructorCall} {s t : State}
      (h : CallsMade enter o calls (s.after (.constructorMarked o k)) t) :
      CallsMade enter o calls s t
  | call {call : ConstructorCall} {calls : List ConstructorCall} {s u t : State}
      (hcall : call.run enter o s = (.value (), u)) (h : CallsMade enter o calls u t) :
      CallsMade enter o (call :: calls) s t

theorem CallsMade.append {enter : Enter} {o : ObjectId} {calls calls' : List ConstructorCall}
    {s t u : State} (h : CallsMade enter o calls s t) (h' : CallsMade enter o calls' t u) :
    CallsMade enter o (calls ++ calls') s u := by
  induction h with
  | nil => exact h'
  | mark _ ih => exact .mark (ih h')
  | call hcall _ ih => exact .call hcall (ih h')

/-- What the constructor of a class gets where an object of the class `cls` is created. -/
def argsFor (cls : ClassId) (args : List Value) (k : ClassId) : List Value :=
  if k = cls then args else []

namespace Registry

/-- The constructor of a class. -/
def constructor? (r : Registry) (k : ClassId) : Option MemberFunction :=
  (r.get? k).bind (·.function? constructorName)

section

variable (r : Registry) (argsOf : ClassId → List Value)

/-- The call of the initializer of a class, if its constructor has one. -/
def initializerCall? (k : ClassId) : Option ConstructorCall :=
  ((r.constructor? k).filter (·.initializer.isSome)).map (⟨.initializer, ·, argsOf k⟩)

/-- The call of the body of the constructor of a class. -/
def bodyCall? (k : ClassId) : Option ConstructorCall :=
  (r.constructor? k).map (⟨.body, ·, argsOf k⟩)

/-- The call with which a visit begins or ends. -/
def call? : Visit → Option ConstructorCall
  | .begins k => r.initializerCall? argsOf k
  | .ends k => r.bodyCall? argsOf k

end

variable {r : Registry} {argsOf : ClassId → List Value} {k : ClassId} {call : ConstructorCall}

/-- The constructors that are called are those of classes. -/
theorem isDeclared_of_call? {v : Visit}
    (hdeclared : ∀ k f, r.constructor? k = some f → f.flags.isConstructor = true)
    (h : r.call? argsOf v = some call) : call.IsDeclared := by
  cases v with
  | begins k =>
    obtain ⟨f, hf, rfl⟩ := Option.map_eq_some_iff.mp h
    obtain ⟨hf, hinitializer⟩ := Option.filter_eq_some_iff.mp hf
    exact ⟨hdeclared k f hf, fun _ => hinitializer⟩
  | ends k =>
    obtain ⟨f, hf, rfl⟩ := Option.map_eq_some_iff.mp h
    exact ⟨hdeclared k f hf, by simp⟩

theorem part_of_initializerCall? (h : r.initializerCall? argsOf k = some call) :
    call.part = .initializer := by
  obtain ⟨f, -, rfl⟩ := Option.map_eq_some_iff.mp h
  rfl

theorem part_of_bodyCall? (h : r.bodyCall? argsOf k = some call) : call.part = .body := by
  obtain ⟨f, -, rfl⟩ := Option.map_eq_some_iff.mp h
  rfl

/-- The initializers among the calls of a traversal are in the order in which visits
begin. -/
theorem filter_initializers (vs : List Visit) :
    (vs.filterMap (r.call? argsOf)).filter (·.part = .initializer) =
      (Visit.begun vs).filterMap (r.initializerCall? argsOf) := by
  induction vs with
  | nil => rfl
  | cons v vs ih =>
    cases v with
    | begins k =>
      rw [Visit.begun, List.filterMap_cons, List.filterMap_cons, call?]
      cases hcall : r.initializerCall? argsOf k with
      | none => exact ih
      | some call =>
        rw [List.filter_cons_of_pos (by simp [part_of_initializerCall? hcall]), ih]
    | ends k =>
      rw [Visit.begun, List.filterMap_cons, call?]
      cases hcall : r.bodyCall? argsOf k with
      | none => exact ih
      | some call =>
        rw [List.filter_cons_of_neg (by simp [part_of_bodyCall? hcall]), ih]

/-- The bodies are in the order in which visits end. -/
theorem filter_bodies (vs : List Visit) :
    (vs.filterMap (r.call? argsOf)).filter (·.part = .body) =
      (Visit.ended vs).filterMap (r.bodyCall? argsOf) := by
  induction vs with
  | nil => rfl
  | cons v vs ih =>
    cases v with
    | begins k =>
      rw [Visit.ended, List.filterMap_cons, call?]
      cases hcall : r.initializerCall? argsOf k with
      | none => exact ih
      | some call =>
        rw [List.filter_cons_of_neg (by simp [part_of_initializerCall? hcall]), ih]
    | ends k =>
      rw [Visit.ended, List.filterMap_cons, List.filterMap_cons, call?]
      cases hcall : r.bodyCall? argsOf k with
      | none => exact ih
      | some call =>
        rw [List.filter_cons_of_pos (by simp [part_of_bodyCall? hcall]), ih]

end Registry

/-! ### States of a construction -/

/-- The classes of the object that have been visited are those that are marked. -/
structure Constructing (r : Registry) (o : ObjectId) (visited : List ClassId) (s : State) :
    Prop where
  made : s.world.Made o
  grows : r.GrowsTo s.world.registry
  marks : ∀ ob, s.world.objects.get? o = some ob → ∀ k, ob.isConstructed k = true ↔ k ∈ visited

section

variable {r : Registry} {o : ObjectId} {visited : List ClassId} {s t : State} {es : List Event}

/-- A class that is marked has been visited. -/
theorem Constructing.mark (h : Constructing r o visited s) (k : ClassId) :
    Constructing r o (visited ++ [k]) (s.after (.constructorMarked o k)) where
  made := h.made.after (e := .constructorMarked o k) trivial
  grows := h.grows
  marks ob' hob' j := by
    rcases World.cases_of_get?_after hob' with ⟨ob, hob, rfl⟩ | ⟨-, _, _, hevent, -⟩
    · rw [Event.isConstructed_change, h.marks ob hob j, Event.constructorMarked.injEq, eq_self,
        true_and, List.mem_append, List.mem_singleton, eq_comm (a := k)]
    · cases hevent

/-- Where no class of the object is marked, none has been visited in between. -/
theorem Constructing.replay (h : Constructing r o visited s) (hes : s.world.AdmitsAll es)
    (hmark : ∀ k, .constructorMarked o k ∉ es) :
    Constructing r o visited (es.foldl State.after s) := by
  have hleads := World.leadsTo_replay s.world es
  rw [← State.world_foldl_after] at hleads
  refine ⟨?_, h.grows.trans hleads.registry, fun ob' hob' k => ?_⟩
  · rw [State.world_foldl_after]
    exact h.made.replay hes
  · obtain ⟨ob, hob, -, hsubset⟩ := hleads.objects o ob' h.made.allocated hob'
    rw [← h.marks ob hob k]
    refine ⟨fun hk => ?_, fun hk => ?_⟩
    · rw [State.world_foldl_after] at hob'
      rcases World.hasMark_of_replay hob' hk with ⟨ob₀, hob₀, hk₀⟩ | hmem
      · cases hob.symm.trans hob₀
        exact hk₀
      · exact absurd hmem (hmark k)
    · unfold Object.isConstructed at hk ⊢
      rw [List.contains_iff_mem] at hk ⊢
      exact hsubset hk

theorem Run.Follows.not_chained {α : Type} {r : Run α} {x : Outcome α} (hr : r.Follows)
    (hrun : r s = (x, t)) (ht : .chained ∉ t.journal) : .chained ∉ s.journal := by
  have hearlier := hr.prefix_journal s
  rw [hrun] at hearlier
  exact fun hmem => ht (List.mem_reverse.mp (hearlier.subset (List.mem_reverse.mpr hmem)))

theorem State.filterMap_journal_foldl_after {α : Type} (f : Event → Option α) (s : State)
    (es : List Event) : (es.foldl State.after s).journal.reverse.filterMap f =
      s.journal.reverse.filterMap f ++ es.filterMap f := by
  rw [State.journal_foldl_after, List.reverse_append, List.reverse_reverse, List.filterMap_append]

/-! ### What happens in a call -/

variable {run : Code → List Value → Run Value}
variable (hrun : ∀ c args, (run c args).FollowsSparing)

include hrun

/-- In a frame in which a part of a constructor runs, that start is the only one for the
object, and no class is marked. -/
theorem enterFrame_events (hs : s.world.Made o) {f : Frame} {a : Activity} {args : List Value}
    {v : Value} {p : ConstructorPart × ClassId} (hobject : f.object = some o)
    (hpart : a.part? = some p) (hcall : enterFrame run f a args s = (.value v, t))
    (hchain : .chained ∉ t.journal) :
    ∃ es, s.world.AdmitsAll es ∧ t = es.foldl State.after s ∧
      es.filterMap (·.constructorStart? o) = [p] ∧ ∀ k, .constructorMarked o k ∉ es := by
  rw [enterFrame_apply] at hcall
  split at hcall
  · cases hcall
  · next hroom =>
    have hroom : s.world.stack.depth < s.world.stack.limit := Nat.lt_of_not_le hroom
    obtain ⟨es, hes, hend, hspared⟩ := (hrun a.code args).2 _
      (s.sound_after hs.sound (.entered f a) hroom)
    cases hcode : run a.code args (s.after (.entered f a)) with
    | mk out u =>
      rw [hcode] at hcall hend
      cases out with
      | value v' =>
        obtain ⟨-, rfl⟩ := Prod.mk.inj hcall
        have hend : u = es.foldl State.after (s.after (.entered f a)) := hend
        -- what happens in the frame is in the journal, so nothing has chained there
        have hunchained : .chained ∉ es := by
          rintro hmem
          refine hchain (List.mem_cons_of_mem _ ?_)
          rw [hend, State.journal_foldl_after]
          exact List.mem_append_left _ (List.mem_reverse.mpr hmem)
        have hmade : (s.after (.entered f a)).world.Made o :=
          hs.after (e := .entered f a) hroom
        have hnone := (hspared o hmade (Option.some_ne_none o).symm).of_not_chained hunchained
        refine ⟨.entered f a :: (es ++ [.left none]), ⟨hroom, ?_⟩, ?_, ?_, fun k hmem => ?_⟩
        · exact World.admitsAll_append.mpr ⟨hes, trivial, trivial⟩
        · rw [List.foldl_cons, List.foldl_append, ← hend]
          rfl
        · have hstart : (Event.entered f a).constructorStart? o = some p := by
            rw [Event.constructorStart?, if_pos hobject, hpart]
          have hnil : es.filterMap (·.constructorStart? o) = [] := by
            rw [List.filterMap_eq_nil_iff]
            intro e he
            rw [← Option.not_isSome_iff_eq_none]
            exact fun hstart => hnone e he (Or.inr hstart)
          rw [List.filterMap_cons_some hstart, List.filterMap_append, hnil]
          rfl
        · rcases List.mem_cons.mp hmem with hfirst | hmem
          · cases hfirst
          · rcases List.mem_append.mp hmem with hmem | hlast
            · exact hnone _ hmem (Or.inl ⟨k, rfl⟩)
            · cases List.mem_singleton.mp hlast
      | failure e => cases hcall
      | exhausted => cases hcall

theorem ConstructorCall.events {call : ConstructorCall} (hdeclared : call.IsDeclared)
    (hs : s.world.Made o) (hcall : call.run (enterFrame run) o s = (.value (), t))
    (hchain : .chained ∉ t.journal) :
    ∃ es, s.world.AdmitsAll es ∧ t = es.foldl State.after s ∧
      es.filterMap (·.constructorStart? o) = [call.start] ∧
      ∀ k, .constructorMarked o k ∉ es := by
  obtain ⟨part, f, args⟩ := call
  cases part with
  | initializer =>
    obtain ⟨code, hcode⟩ : ∃ code, f.initializer = some code :=
      Option.isSome_iff_exists.mp (hdeclared.2 rfl)
    have hcall : runInitializer (enterFrame run) f o args s = (.value (), t) := hcall
    unfold runInitializer at hcall
    rw [hcode] at hcall
    obtain ⟨v, u, henter, hlast⟩ := Run.exists_of_bind_eq_value hcall
    cases hlast
    exact enterFrame_events hrun hs rfl rfl henter hchain
  | body =>
    obtain ⟨v, u, henter, hlast⟩ := Run.exists_of_bind_eq_value hcall
    cases hlast
    have hpart : (Activity.body f).part? = some (.body, f.owner) := if_pos hdeclared.1
    exact enterFrame_events hrun hs rfl hpart henter hchain

theorem ConstructorCall.follows (call : ConstructorCall) :
    (call.run (enterFrame run) o).Follows := by
  have hlaw := follows_localLaw
  have hfollows := fun c args => (hrun c args).1
  unfold ConstructorCall.run
  split
  · exact (hlaw.frameLaw hfollows).callLaw.runInitializer _ _ _
  · exact hlaw.bind (enterFrame_follows hfollows _ _ _) fun _ => hlaw.pure ()

/-! ### What happens in calls -/

theorem CallsMade.not_chained {calls : List ConstructorCall}
    (h : CallsMade (enterFrame run) o calls s t) (ht : .chained ∉ t.journal) :
    .chained ∉ s.journal := by
  induction h with
  | nil => exact ht
  | mark _ ih => exact fun hmem => ih ht (List.mem_cons_of_mem _ hmem)
  | call hcall _ ih => exact (ConstructorCall.follows hrun _).not_chained hcall (ih ht)

/-- **The calls that are made are all the starts there are**, as long as nothing chains. -/
theorem CallsMade.starts_eq {calls : List ConstructorCall}
    (h : CallsMade (enterFrame run) o calls s t) (hs : s.world.Made o)
    (hdeclared : ∀ call ∈ calls, call.IsDeclared) (ht : .chained ∉ t.journal) :
    t.journal.reverse.filterMap (·.constructorStart? o) =
      s.journal.reverse.filterMap (·.constructorStart? o) ++ calls.map (·.start) := by
  induction h with
  | nil => exact (List.append_nil _).symm
  | @mark k _ s _ _ ih =>
    have hmarked := s.filterMap_journal_foldl_after (·.constructorStart? o)
      [.constructorMarked o k]
    rw [List.filterMap_cons_none rfl, List.filterMap_nil, List.append_nil] at hmarked
    rw [ih (hs.after (e := .constructorMarked o k) trivial) hdeclared ht, ← hmarked]
    rfl
  | call hcall hrest ih =>
    rw [List.forall_mem_cons] at hdeclared
    obtain ⟨es, hes, rfl, hstart, -⟩ :=
      ConstructorCall.events hrun hdeclared.1 hs hcall (hrest.not_chained hrun ht)
    have hmade := hs.replay hes
    rw [← State.world_foldl_after] at hmade
    rw [ih hmade hdeclared.2 ht, State.filterMap_journal_foldl_after, hstart, List.append_assoc]
    rfl

end

/-! ### Traversals -/

/-- From one state to the other, the classes that are pending have been constructed: the
calls of a traversal have been made, and the classes that it visits are marked. -/
def Traversed (enter : Enter) (r : Registry) (argsOf : ClassId → List Value) (o : ObjectId)
    (pending visited : List ClassId) (s t : State) : Prop :=
  ∃ vs, r.Traverses pending visited vs ∧
    CallsMade enter o (vs.filterMap (r.call? argsOf)) s t ∧
    Constructing r o (visited ++ Visit.begun vs) t

section

variable {r : Registry} {o : ObjectId} {visited : List ClassId} {s t : State} {enter : Enter}
variable {argsOf : ClassId → List Value}

theorem Traversed.cons {k : ClassId} {ks : List ClassId} {u : State}
    (h : Traversed enter r argsOf o [k] visited s u)
    (hrest : ∀ visited, Constructing r o visited u →
      Traversed enter r argsOf o ks visited u t) :
    Traversed enter r argsOf o (k :: ks) visited s t := by
  obtain ⟨vs, htraverses, hcalls, hconstructing⟩ := h
  obtain ⟨vs', htraverses', hcalls', hconstructing'⟩ := hrest _ hconstructing
  refine ⟨vs ++ vs', htraverses.append htraverses', ?_, ?_⟩
  · rw [List.filterMap_append]
    exact hcalls.append hcalls'
  · rw [Visit.begun_append, ← List.append_assoc]
    exact hconstructing'

/-- The visit of a class is its initializer, then its superclasses, then its body. -/
theorem Traversed.visit {k : ClassId} {c : Class} {s₁ s₂ : State} (hc : r.get? k = some c)
    (hk : k ∉ visited) (hbegins : CallsMade enter o (r.initializerCall? argsOf k).toList s s₁)
    (hsupers : Traversed enter r argsOf o c.supers (visited ++ [k]) s₁ s₂)
    (hends : CallsMade enter o (r.bodyCall? argsOf k).toList s₂ t)
    (hlast : ∀ visited, Constructing r o visited s₂ → Constructing r o visited t) :
    Traversed enter r argsOf o [k] visited s t := by
  obtain ⟨us, htraverses, hcalls, hconstructing⟩ := hsupers
  rw [← Registry.supersOf_eq hc] at htraverses
  refine ⟨_, .fresh hk htraverses (.nil _), ?_, ?_⟩
  · rw [List.filterMap_eq_flatMap_toList] at hcalls ⊢
    rw [List.flatMap_cons, List.flatMap_append, List.flatMap_singleton]
    exact hbegins.append (hcalls.append hends)
  · rw [Visit.begun_visit, Visit.begun, List.append_nil, ← List.singleton_append,
      ← List.append_assoc]
    exact hlast _ hconstructing

/-- Classes are constructed one after the other. -/
theorem forM_traversed {ks : List ClassId} {construct : ClassId → Run Unit}
    (hfollows : ∀ k, (construct k).Follows)
    (hconstruct : ∀ k ∈ ks, ∀ visited s t, Constructing r o visited s →
      construct k s = (.value (), t) → .chained ∉ t.journal →
      Traversed enter r argsOf o [k] visited s t)
    (hs : Constructing r o visited s) (hforM : ks.forM construct s = (.value (), t))
    (ht : .chained ∉ t.journal) : Traversed enter r argsOf o ks visited s t := by
  induction ks generalizing visited s with
  | nil =>
    cases hforM
    exact ⟨[], .nil visited, .nil _, by rwa [Visit.begun, List.append_nil]⟩
  | cons k ks ih =>
    rw [List.forall_mem_cons] at hconstruct
    obtain ⟨_, u, hfirst, hrest⟩ := Run.exists_of_bind_eq_value hforM
    have hu : .chained ∉ u.journal :=
      Run.Follows.not_chained (Run.follows_law.forM hfollows ks) hrest ht
    exact (hconstruct.1 visited s u hs hfirst hu).cons fun visited hu' =>
      ih hconstruct.2 hu' hrest

theorem Run.eq_value_of_attempt {α : Type} {r : Run α} {a : α}
    (h : Run.attempt r s = (.value (.ok a), t)) : r s = (.value a, t) := by
  rw [Run.attempt_apply] at h
  cases hr : r s with
  | mk out u =>
    rw [hr] at h
    cases out <;> cases h
    rfl

variable {run : Code → List Value → Run Value} {opts : EngineOptions} {k : ClassId} {c : Class}
variable (hrun : ∀ c args, (run c args).FollowsSparing) (hr : r.Built opts)
variable (hdeclared : ∀ k f, r.constructor? k = some f → f.flags.isConstructor = true)

include hrun hr hdeclared

omit hr hdeclared in
/-- A call marks no class. -/
theorem Constructing.call {call : ConstructorCall} (hs : Constructing r o visited s)
    (hcall : call.run (enterFrame run) o s = (.value (), t)) (hcallee : call.IsDeclared)
    (ht : .chained ∉ t.journal) : Constructing r o visited t := by
  obtain ⟨es, hes, rfl, -, hmark⟩ := ConstructorCall.events hrun hcallee hs.made hcall ht
  exact hs.replay hes hmark

omit hr in
/-- Running the initializer of a class makes its call, if there is one. -/
theorem runInitializer_callsMade {f : MemberFunction} (hf : r.constructor? k = some f)
    (hinit : runInitializer (enterFrame run) f o (argsOf k) s = (.value (), t))
    (hs : Constructing r o visited s) (ht : .chained ∉ t.journal) :
    CallsMade (enterFrame run) o (r.initializerCall? argsOf k).toList s t ∧
      Constructing r o visited t := by
  rw [Registry.initializerCall?, hf]
  cases hcode : f.initializer with
  | none =>
    unfold runInitializer at hinit
    rw [hcode] at hinit
    cases hinit
    rw [Option.filter_some, hcode]
    exact ⟨.nil s, hs⟩
  | some code =>
    have hcallee : ConstructorCall.IsDeclared ⟨.initializer, f, argsOf k⟩ :=
      ⟨hdeclared k f hf, fun _ => by rw [hcode]; rfl⟩
    have hcall : ConstructorCall.run (enterFrame run) o ⟨.initializer, f, argsOf k⟩ s =
        (.value (), t) := hinit
    rw [Option.filter_some, hcode]
    exact ⟨.call hcall (.nil t), hs.call hrun hcall hcallee ht⟩

/-- A constructor that runs makes the calls of a visit, if the superclasses are traversed. -/
theorem runConstructorWith_traversed {construct : ClassId → Run Unit} {f : MemberFunction}
    {v : Value} {ob : Object} (hfollows : ∀ k, (construct k).Follows) (hc : r.get? k = some c)
    (hf : c.function? constructorName = some f)
    (hconstruct : ∀ j ∈ c.supers, ∀ visited s t, Constructing r o visited s →
      construct j s = (.value (), t) → .chained ∉ t.journal →
      Traversed (enterFrame run) r argsOf o [j] visited s t)
    (hs : Constructing r o visited s) (hob : s.world.objects.get? o = some ob)
    (hk : ob.isConstructed k = false)
    (hctor : runConstructorWith (enterFrame run) construct f o (argsOf k) s = (.value v, t))
    (ht : .chained ∉ t.journal) : Traversed (enterFrame run) r argsOf o [k] visited s t := by
  obtain ⟨rfl, -⟩ := hr.function?_spec hc hf
  have hconstructor : r.constructor? f.owner = some f := by
    rw [Registry.constructor?, hc]
    exact hf
  unfold runConstructorWith at hctor
  obtain ⟨ob', hob', hctor⟩ := Run.eq_of_look_bind_eq_value hctor
  cases (World.objectAt_eq hob).symm.trans hob'
  rw [if_neg (by simp [hk])] at hctor
  obtain ⟨_, s₁, hmark, hctor⟩ := Run.exists_of_bind_eq_value hctor
  cases hmark
  obtain ⟨_, s₂, hinit, hctor⟩ := Run.exists_of_bind_eq_value hctor
  obtain ⟨c', hc', hctor⟩ := Run.eq_of_look_bind_eq_value hctor
  obtain ⟨_, s₃, hsupers, hbody⟩ := Run.exists_of_bind_eq_value hctor
  have h₃ : .chained ∉ s₃.journal :=
    (enterFrame_follows (fun c args => (hrun c args).1) _ _ _).not_chained hbody ht
  have h₂ : .chained ∉ s₂.journal :=
    (Run.follows_law.forM hfollows _).not_chained hsupers h₃
  obtain ⟨hbegins, hs₂⟩ :=
    runInitializer_callsMade hrun hdeclared hconstructor hinit (hs.mark f.owner) h₂
  -- the class is still what it was
  cases (World.classAt_eq (hs₂.grows.get? hc)).symm.trans hc'
  have hcall : ConstructorCall.run (enterFrame run) o ⟨.body, f, argsOf f.owner⟩ s₃ =
      (.value (), t) := by
    show (callMember _ _ _ _ _ >>= fun _ => pure ()) s₃ = _
    rw [Run.bind_apply, hbody]
    rfl
  have hcallee : ConstructorCall.IsDeclared ⟨.body, f, argsOf f.owner⟩ :=
    ⟨hdeclared _ f hconstructor, by simp⟩
  refine Traversed.visit hc ?_ (.mark hbegins) (forM_traversed hfollows hconstruct hs₂ hsupers h₃)
    ?_ fun visited hs₃ => hs₃.call hrun hcall hcallee ht
  · rw [← hs.marks ob hob, hk]
    exact Bool.false_ne_true
  · rw [Registry.bodyCall?, hconstructor]
    exact .call hcall (.nil t)

/-- **Construction makes the calls of a traversal.** -/
theorem constructClass_traversed {cls : ClassId} {args : List Value} {depth : Nat}
    (hk : k.index ≤ cls.index) (hsome : (r.get? k).isSome) (hs : Constructing r o visited s)
    (hconstruct : constructClass (enterFrame run) o depth k (argsFor cls args k) s =
      (.value (), t))
    (ht : .chained ∉ t.journal) :
    Traversed (enterFrame run) r (argsFor cls args) o [k] visited s t := by
  induction depth generalizing k visited s t with
  | zero => cases hconstruct
  | succ depth ih =>
    obtain ⟨c, hc⟩ := Option.isSome_iff_exists.mp hsome
    have hfollows : ∀ j, (constructClass (enterFrame run) o depth j []).Follows := fun j =>
      follows_localLaw.constructClass (fun c args => (hrun c args).1) o depth j []
    -- the superclasses have smaller numbers than `cls`, and get no arguments
    have hsupers : ∀ j ∈ c.supers, ∀ visited s t, Constructing r o visited s →
        constructClass (enterFrame run) o depth j [] s = (.value (), t) →
        .chained ∉ t.journal →
        Traversed (enterFrame run) r (argsFor cls args) o [j] visited s t := by
      intro j hj visited s t hs hconstruct ht
      have hlt := hr.index_lt_of_mem_supers hc hj
      have hargs : argsFor cls args j = [] := if_neg (by rintro rfl; omega)
      rw [← hargs] at hconstruct
      exact ih (by omega) (Registry.isSome_get?_of_le hlt.le hc) hs hconstruct ht
    unfold constructClass at hconstruct
    obtain ⟨ob, hob, hconstruct⟩ := Run.eq_of_look_bind_eq_value hconstruct
    rw [World.objectAt_eq_ok_iff] at hob
    split at hconstruct
    · next hmarked =>
      cases hconstruct
      have hvisited : k ∈ visited := (hs.marks ob hob k).mp hmarked
      exact ⟨[], .seen hvisited (.nil visited), .nil s, by rwa [Visit.begun, List.append_nil]⟩
    · next hunmarked =>
      obtain ⟨c', hc', hconstruct⟩ := Run.eq_of_look_bind_eq_value hconstruct
      cases (World.classAt_eq (hs.grows.get? hc)).symm.trans hc'
      cases hf : c.function? constructorName with
      | some f =>
        rw [hf] at hconstruct
        obtain ⟨v, u, hctor, hlast⟩ := Run.exists_of_bind_eq_value hconstruct
        cases hlast
        exact runConstructorWith_traversed hrun hr hdeclared hfollows hc hf hsupers hs hob
          (by simpa using hunmarked) hctor ht
      | none =>
        rw [hf] at hconstruct
        have hconstructor : r.constructor? k = none := by
          rw [Registry.constructor?, hc]
          exact hf
        obtain ⟨_, s₁, hmark, hconstruct⟩ := Run.exists_of_bind_eq_value hconstruct
        cases hmark
        refine Traversed.visit hc ?_ ?_
          (forM_traversed hfollows hsupers (hs.mark k) hconstruct ht) ?_ fun _ ht => ht
        · rwa [← hs.marks ob hob]
        · rw [Registry.initializerCall?, hconstructor]
          exact .mark (.nil _)
        · rw [Registry.bodyCall?, hconstructor]
          exact .nil t

end

/-! ### Initial values -/

section

variable {w : World} {o : ObjectId} {ob : Object} {c : Class}

/-- Where assignments give a variable no other value, it has that value: an induction on
the assignments, of which the last one for the variable counts. -/
theorem World.stored_replay_of_assigned {es : List Event}
    (hes : ∀ e ∈ es, ∃ y x, e = .assigned o y x) (hob : w.objects.get? o = some ob)
    {y : String} {x : Value} (hmem : .assigned o y x ∈ es)
    (honly : ∀ z, .assigned o y z ∈ es → z = x) : (w.replay es).stored o y = some x := by
  induction es generalizing w ob with
  | nil => cases hmem
  | cons e es ih =>
    rw [List.forall_mem_cons] at hes
    obtain ⟨⟨y', x', rfl⟩, hes⟩ := hes
    have hset := get?_after_assigned hob y' x'
    have honly' : ∀ z, .assigned o y z ∈ es → z = x := fun z hz =>
      honly z (List.mem_cons_of_mem _ hz)
    by_cases hlater : .assigned o y x ∈ es
    · exact ih hes hset hlater honly'
    · -- this is the last one
      cases (List.mem_cons.mp hmem).resolve_right hlater
      obtain ⟨ob', hob', -, hvalues⟩ := exists_get?_replay_of_assigned hes hset
      have hkept := hvalues y fun e he hwrite => by
        obtain ⟨y', z, rfl⟩ := hes e he
        cases hwrite
        exact hlater (honly' z he ▸ he)
      show ((w.after (.assigned o y x)).replay es).stored o y = some x
      rw [World.stored, hob', Option.bind_some, hkept]
      exact World.value?_after_assigned hset

theorem Registry.mem_heritage_initialValues {r : Registry} {v : Variable}
    (hv : v ∈ r.variablesOf c) {x : Value} (hx : v.init = some x) :
    .assigned o v.fullName x ∈ r.initialValues o c.heritage := by
  obtain ⟨d, hd, hvd⟩ := List.mem_flatMap.mp hv
  refine List.mem_flatMap.mpr ⟨d, hd, List.mem_filterMap.mpr ⟨v, hvd, ?_⟩⟩
  rw [hx]
  rfl

/-- **The variables of a new object have their initial values**, those whose full names are
their own. -/
theorem World.stored_prepared (w : World) (cls : ClassId) (name : String) {v : Variable}
    (hv : v ∈ w.registry.variablesOf c) {x : Value} (hx : v.init = some x)
    (hown : ∀ u ∈ w.registry.variablesOf c, u.fullName = v.fullName → u = v) :
    (w.prepared cls name c).stored w.objects.nextId v.fullName = some x := by
  obtain ⟨ob, hob⟩ := Option.isSome_iff_exists.mp (w.isSome_get?_after_objectCreated name cls)
  unfold World.prepared Registry.preparation
  rw [World.replay_append]
  refine World.stored_replay_of_assigned (fun e he => Registry.exists_of_mem_initialValues he) hob
    (Registry.mem_heritage_initialValues hv hx) fun z hz => ?_
  obtain ⟨u, hu, z', hz', hsame⟩ := Registry.exists_of_mem_heritage_initialValues hz
  rw [Event.assigned.injEq] at hsame
  rw [hown u hu hsame.2.1.symm, hx, Option.some.injEq] at hz'
  rw [hsame.2.2, hz']

end

/-! ### The creation of an object -/

/-- The calls are those of the constructors of a heritage, each of them once: the
initializers in heritage order, and the bodies in postorder, in which ancestors come first.
The constructor of the class itself gets the arguments. -/
structure ConstructsInOrder (r : Registry) (cls : ClassId) (c : Class) (args : List Value)
    (calls : List ConstructorCall) : Prop where
  initializers : calls.filter (·.part = .initializer) =
    c.heritage.filterMap (r.initializerCall? (argsFor cls args))
  bodies : calls.filter (·.part = .body) =
    (r.postorderOf cls).filterMap (r.bodyCall? (argsFor cls args))
  perm : (r.postorderOf cls).Perm c.heritage
  nodup : c.heritage.Nodup
  ancestorsFirst : r.AncestorsFirst (r.postorderOf cls)
  postorder : ∀ k, r.postorderOf k =
    ((r.supersOf k).flatMap r.postorderOf ++ [k]).eraseDups

theorem Registry.Traverses.constructsInOrder {r : Registry} {opts : EngineOptions} {cls : ClassId}
    {c : Class} {vs : List Visit} (h : r.Traverses [cls] [] vs) (hr : r.Built opts)
    (hc : r.get? cls = some c) (args : List Value) :
    ConstructsInOrder r cls c args (vs.filterMap (r.call? (argsFor cls args))) where
  initializers := by rw [Registry.filter_initializers, h.begun_eq hr hc]
  bodies := by rw [Registry.filter_bodies, h.ended_eq hr]
  perm := by
    rw [← h.ended_eq hr, ← h.begun_eq hr hc]
    exact h.perm
  nodup := hr.nodup_heritage hc
  ancestorsFirst := hr.ancestorsFirst_postorderOf cls
  postorder := hr.postorderOf_eq

/-- The state in which the construction of a new object begins. -/
def State.prepared (s : State) (cls : ClassId) (name : String) (c : Class) : State :=
  (.objectCreated name cls :: s.world.registry.preparation s.world.objects.nextId c).foldl
    State.after s

theorem State.world_prepared (s : State) (cls : ClassId) (name : String) (c : Class) :
    (s.prepared cls name c).world = s.world.prepared cls name c :=
  State.world_foldl_after _ _

/-- Nothing has been called before the construction of a new object begins. -/
theorem State.starts_prepared (w : World) (cls : ClassId) (name : String) (c : Class)
    (o : ObjectId) :
    (State.prepared { world := w } cls name c).journal.reverse.filterMap
      (·.constructorStart? o) = [] := by
  unfold State.prepared
  rw [State.reverse_journal_foldl_after, List.filterMap_cons_none rfl]
  refine List.filterMap_eq_nil_iff.mpr fun e he => ?_
  exact Event.IsQuiet.constructorStart?_eq_none (Registry.isQuiet_of_mem_preparation he).1 o

/-- When the construction of a new object begins, no class has been visited. -/
theorem World.Sound.constructing_of_prepared {s : State} (hs : s.world.Sound) {cls : ClassId}
    {name : String} {c : Class} (hc : s.world.registry.get? cls = some c)
    (hfree : s.world.objects.find? name = none) :
    Constructing s.world.registry s.world.objects.nextId [] (s.prepared cls name c) := by
  have hadmits : s.world.AdmitsAll
      (.objectCreated name cls :: s.world.registry.preparation s.world.objects.nextId c) := by
    unfold Registry.preparation
    rw [← List.cons_append, World.admitsAll_append]
    exact ⟨(Task.Begins.create hc hfree).admitsAll, trivial, trivial⟩
  refine ⟨⟨?_, ?_⟩, ?_, fun ob hob k => ?_⟩
  · exact State.world_prepared .. ▸ hs.replay hadmits
  · rw [State.world_prepared]
    exact (World.leadsTo_replay (s.world.after (.objectCreated name cls)) _).created
  · rw [State.world_prepared]
    exact ((s.world.leadsTo_after _).trans (World.leadsTo_replay _ _)).registry
  · rw [State.world_prepared] at hob
    unfold Object.isConstructed
    rw [hs.constructed_of_prepared hob]
    simp

/-- The creation of an object that succeeds constructs its class. -/
theorem exists_construction {enter : Enter} {cls : ClassId} {name : String} {args : List Value}
    {s u : State} {id : ObjectId} (hs : s.world.Sound)
    (hcreate : createObject enter cls name args s = (.value id, u)) :
    ∃ c t, s.world.registry.get? cls = some c ∧ s.world.objects.find? name = none ∧
      constructClass enter id (cls.index + 1) cls args (s.prepared cls name c) =
        (.value (), t) ∧
      u = t.after (.constructionEnded id) := by
  obtain rfl := eq_nextId_of_createObject hcreate
  unfold createObject at hcreate
  obtain ⟨c, hc, hcreate⟩ := Run.eq_of_look_bind_eq_value hcreate
  rw [World.classAt_eq_ok_iff] at hc
  obtain ⟨w, _, hworld, hcreate⟩ := Run.exists_of_bind_eq_value hcreate
  cases hworld
  split at hcreate
  · cases hcreate
  · next hfree =>
    have hfree : s.world.objects.find? name = none := by
      simpa [World.findObject?] using hfree
    split at hcreate
    · cases hcreate
    · -- the operations before the construction have one outcome each
      obtain ⟨_, s₁, hcreated, hcreate⟩ := Run.exists_of_bind_eq_value hcreate
      cases hcreated
      obtain ⟨_, s₂, hvalues, hcreate⟩ := Run.exists_of_bind_eq_value hcreate
      have hnew : ((s.after (.objectCreated name cls)).world.objects.get?
          s.world.objects.nextId).isSome :=
        s.world.isSome_get?_after_objectCreated name cls
      have hheritage : ∀ k ∈ c.heritage,
          ((s.after (.objectCreated name cls)).world.registry.get? k).isSome :=
        hs.built.isSome_of_mem_heritage hc
      rw [initializeVariables_apply hheritage hnew] at hvalues
      cases hvalues
      obtain ⟨_, s₃, hbegun, hcreate⟩ := Run.exists_of_bind_eq_value hcreate
      cases hbegun
      obtain ⟨result, s₄, hattempt, hcreate⟩ := Run.exists_of_bind_eq_value hcreate
      obtain ⟨_, s₅, hended, hcreate⟩ := Run.exists_of_bind_eq_value hcreate
      cases hended
      cases result with
      | ok =>
        cases hcreate
        refine ⟨c, s₄, hc, hfree, ?_, rfl⟩
        have hprepared : s.prepared cls name c = State.after
            ((s.world.registry.initialValues s.world.objects.nextId c.heritage).foldl State.after
              (s.after (.objectCreated name cls)))
            (.constructionBegun s.world.objects.nextId) := by
          unfold State.prepared Registry.preparation
          rw [List.foldl_cons, List.foldl_append]
          rfl
        rw [hprepared]
        exact Run.eq_value_of_attempt hattempt
      | error e =>
        obtain ⟨_, s₆, -, hfailed⟩ := Run.exists_of_bind_eq_value hcreate
        cases hfailed

/-- **The order in which constructors run.**  When the creation of an object has succeeded
and nothing has chained, the constructors of its classes have been called, each of them once
and no others.  From the beginning of the construction on, the initializers were called in
heritage order and the bodies in postorder, after the bodies of all ancestors.  At the
beginning the variables had their initial values. -/
theorem construction_of_object {opts : EngineOptions} {w : World}
    (hw : Session.Reachable opts w)
    (hdeclared : ∀ c ∈ w.registry.classes, ∀ f ∈ c.functions.toList,
      f.name = constructorName → f.flags.isConstructor = true)
    {loads frames : Nat} {cls : ClassId} {name : String} {args : List Value} {id : ObjectId}
    {s : State}
    (hrun : createObject (enterFrame (runCode loads frames)) cls name args { world := w } =
      (.value id, s))
    (hchain : .chained ∉ s.journal) :
    ∃ c calls t, w.registry.get? cls = some c ∧
      CallsMade (enterFrame (runCode loads frames)) id calls
        (State.prepared { world := w } cls name c) t ∧
      s = t.after (.constructionEnded id) ∧
      s.journal.reverse.filterMap (·.constructorStart? id) = calls.map (·.start) ∧
      ConstructsInOrder w.registry cls c args calls ∧
      ∀ v ∈ w.registry.variablesOf c, ∀ x, v.init = some x →
        (∀ v' ∈ w.registry.variablesOf c, v'.fullName = v.fullName → v' = v) →
        (State.prepared { world := w } cls name c).world.stored id v.fullName = some x := by
  obtain rfl : id = w.objects.nextId := eq_nextId_of_createObject hrun
  obtain ⟨c, t, hc, hfree, hconstruct, rfl⟩ :=
    exists_construction (s := { world := w }) hw.sound hrun
  have hchain : .chained ∉ t.journal := fun hmem => hchain (List.mem_cons_of_mem _ hmem)
  have hbuilt : w.registry.Built opts := hw.options_eq ▸ hw.sound.built
  have hsparing := spares_evaluationLaw.runCode loads frames
  have hconstructors : ∀ k f, w.registry.constructor? k = some f →
      f.flags.isConstructor = true := by
    intro k f hf
    obtain ⟨d, hd, hf⟩ := Option.bind_eq_some_iff.mp hf
    exact hdeclared d (Registry.mem_of_get? hd) f (MemberTable.mem_toList_of_get? hf)
      (hbuilt.function?_spec hd hf).2.1
  have hprepared : Constructing w.registry w.objects.nextId []
      (State.prepared { world := w } cls name c) :=
    hw.sound.constructing_of_prepared hc hfree
  have hargs : args = argsFor cls args cls := (if_pos rfl).symm
  rw [hargs] at hconstruct
  obtain ⟨vs, htraverses, hcalls, -⟩ := constructClass_traversed hsparing hbuilt hconstructors
    (Nat.le_refl _) (by rw [hc]; rfl) hprepared hconstruct hchain
  have hdeclares : ∀ call ∈ vs.filterMap (w.registry.call? (argsFor cls args)),
      call.IsDeclared := by
    intro call hcall
    obtain ⟨v, -, hcall⟩ := List.mem_filterMap.mp hcall
    exact Registry.isDeclared_of_call? hconstructors hcall
  have hstarts := hcalls.starts_eq hsparing hprepared.made hdeclares hchain
  rw [State.starts_prepared, List.nil_append] at hstarts
  refine ⟨c, _, t, hc, hcalls, rfl, ?_, htraverses.constructsInOrder hbuilt hc args,
    fun v hv x hx hown => ?_⟩
  · show (Event.constructionEnded w.objects.nextId :: t.journal).reverse.filterMap _ = _
    rw [List.reverse_cons, List.filterMap_append, hstarts]
    exact List.append_nil _
  · rw [State.world_prepared]
    exact w.stored_prepared cls name hv hx hown

/-- Code chains. -/
def Event.chains : Event → Bool
  | .chained => true
  | _ => false

/-- Defines four classes, the last of which inherits from the first along two ways.  The
first and the last have initializers, the second has the body of a constructor only, and
the third has no constructor. -/
def rivers : Expr :=
  .sequence [
    .defineClass
      { name := "Spring"
        members := [.var "length" .priv (some (.int 7)),
          .ctor (some (.log (.const (.str "spring")))) (.log .arguments)] },
    .defineClass
      { name := "East", inherits := ["Spring"]
        members := [.var "length" .priv (some (.int 8)), .ctor none (.log .arguments)] },
    .defineClass { name := "West", inherits := ["Spring"] },
    .defineClass
      { name := "Delta", inherits := ["East", "West"]
        members := [.ctor (some (.log .arguments)) (.log .arguments)] }]

/-- The world with the four classes. -/
def riverWorld : World := (Session.step 0 (World.initial {}) rivers).2.world

theorem riverWorld_reachable : Session.Reachable {} riverWorld :=
  (Session.Between.next rivers .start (by decide +kernel)).reachable

/-- The last of the classes. -/
def delta : Class := (riverWorld.registry.get? ⟨3⟩).get (by decide +kernel)

/-- The creation of an object of the last class. -/
def deltaRun : Outcome ObjectId × State :=
  createObject (enterFrame (runCode 0 2)) ⟨3⟩ "d" [.int 5] { world := riverWorld }

theorem deltaRun_eq : deltaRun = (.value ⟨1⟩, deltaRun.2) := by
  have hvalue : deltaRun.1 = .value ⟨1⟩ := by decide +kernel
  rw [← hvalue]

/-- The initializer of the last class runs first and its body last, both with the
argument. -/
theorem construction_of_delta :
    ∃ calls t, CallsMade (enterFrame (runCode 0 2)) ⟨1⟩ calls
        (State.prepared { world := riverWorld } ⟨3⟩ "d" delta) t ∧
      deltaRun.2 = t.after (.constructionEnded ⟨1⟩) ∧
      calls.map (·.start) = [(.initializer, ⟨3⟩), (.initializer, ⟨0⟩), (.body, ⟨0⟩),
        (.body, ⟨1⟩), (.body, ⟨3⟩)] ∧
      (calls.filter (·.part = .initializer)).map (fun call => call.args.map (·.text)) =
        [["5"], []] ∧
      (calls.filter (·.part = .body)).map (fun call => call.args.map (·.text)) =
        [[], [], ["5"]] ∧
      ((State.prepared { world := riverWorld } ⟨3⟩ "d" delta).world.stored ⟨1⟩
        "::Spring::length").map (·.text) = some "7" := by
  have hdeclared : ∀ c ∈ riverWorld.registry.classes, ∀ f ∈ c.functions.toList,
      f.name = constructorName → f.flags.isConstructor = true := by decide +kernel
  have hquiet : deltaRun.2.journal.all (!·.chains) = true := by decide +kernel
  have hchain : .chained ∉ deltaRun.2.journal := fun hmem => by
    cases List.all_eq_true.mp hquiet _ hmem
  obtain ⟨c, calls, t, hc, hcalls, hend, hstarts, horder, hvalues⟩ :=
    construction_of_object riverWorld_reachable hdeclared deltaRun_eq hchain
  have hdelta : riverWorld.registry.get? ⟨3⟩ = some delta := (Option.some_get _).symm
  obtain rfl : delta = c := Option.some.inj (hdelta.symm.trans hc)
  refine ⟨calls, t, hcalls, hend, ?_, ?_, ?_, ?_⟩
  · rw [← hstarts]
    decide +kernel
  · rw [horder.initializers]
    decide +kernel
  · rw [horder.bodies]
    decide +kernel
  · obtain ⟨v, hv, hname, hinit⟩ : ∃ v ∈ riverWorld.registry.variablesOf delta,
        v.fullName = "::Spring::length" ∧ v.init.map (·.text) = some "7" := by decide +kernel
    obtain ⟨x, hx, htext⟩ := Option.map_eq_some_iff.mp hinit
    have hnodup : ((riverWorld.registry.variablesOf delta).map (·.fullName)).Nodup := by
      decide +kernel
    rw [← hname, hvalues v hv x hx fun v' hv' hsame =>
      List.inj_on_of_nodup_map hnodup hv' hv hsame, ← htext]
    rfl

end ObjectDispatch
