import ObjectDispatch.Proofs.Starts

/-!
# Who starts a body, and on what

A function that is called by a name is protected: the body of a protected function
starts only for code of the heritage of the class against which the name was resolved,
and that of a private one only for code of the class that declares it.  And a function
that is no procedure needs an object to run on; a call by a name gives it one.

Chaining does the first half of the first and nothing of the rest.  It leads along the
heritage that the calling code belongs to, so protected functions are safe from others;
but a private function runs for code of another class, and code that has no object runs
whatever it comes to without one.

## Main results

* `callers_of_functions` — **the class of the calling code, wherever a body starts.**
* `receivers_of_functions` — **the object of the frame, wherever a body starts.**
* `exists_start_of_private`, `exists_start_without_object` — what chaining can start.
-/

namespace ObjectDispatch

section

variable {w : World} {f : Frame} {fn : MemberFunction}

/-! ### The class of the calling code -/

/-- A protected function is started by code of the heritage of the class against which
it was resolved. -/
theorem Call.Starts.exists_of_protected {call : Call} (h : call.Starts w f fn)
    (hprot : fn.protection = .prot) :
    ∃ c, call.target w = .ok c ∧ ∃ g, w.stack.current? = some g ∧ g.scope ∈ c.heritage := by
  by_cases hcall : call = .onward
  · subst hcall
    obtain ⟨c, g, hc, hg, hscope⟩ := h.scope_mem
    exact ⟨c, hc, g, hg, hscope⟩
  · obtain ⟨c, hc, hmay⟩ := h.mayCall hcall
    exact ⟨c, hc, exists_of_mayCall_protected hmay hprot⟩

/-- Unless code chains to it, a private function is started by code of its class. -/
theorem Call.Starts.exists_of_private {call : Call} (h : call.Starts w f fn)
    (hpriv : fn.protection = .priv) (hcall : call ≠ .onward) :
    ∃ g, w.stack.current? = some g ∧ g.scope = fn.owner := by
  obtain ⟨c, -, hmay⟩ := h.mayCall hcall
  exact exists_of_mayCall_private hmay hpriv

/-- **The class of the calling code, wherever a body starts** in a session.  Some call
starts the body, unless it runs as a constructor or as a destructor; and whatever call
starts it, the function is resolved against some class, protected functions are started
by code of the heritage of that class, and private ones by code of the class that
declares them, or by code that chains. -/
theorem callers_of_functions {o : EngineOptions}
    (h : Session.Stretch o w [.entered f (.body fn)]) :
    ((∃ call : Call, call.Starts w f fn) ∨ fn.InLifecycle w.registry f) ∧
    ∀ call : Call, call.Starts w f fn →
      (fn.protection = .prot → ∃ c, call.target w = .ok c ∧
        ∃ g, w.stack.current? = some g ∧ g.scope ∈ c.heritage) ∧
      (fn.protection = .priv →
        call = .onward ∨ ∃ g, w.stack.current? = some g ∧ g.scope = fn.owner) := by
  refine ⟨h.exists_call, fun call hcall => ⟨hcall.exists_of_protected, fun hpriv => ?_⟩⟩
  by_cases honward : call = .onward
  · exact Or.inl honward
  · exact Or.inr (hcall.exists_of_private hpriv honward)

end

/-- Defines a class with a private function, which a function of the class calls, and
one that inherits from it and chains to a private function. -/
def vault : List Expr :=
  [.defineClass
      { name := "Base"
        members := [.method "key" .priv (.const (.str "key")),
          .method "open" .pub (.invoke none (.const (.str "key")) []),
          .method "m" .priv (.log (.const (.str "secret")))] },
    .defineClass
      { name := "Derived", inherits := ["Base"]
        members := [.method "m" .pub
          (.sequence [.guarded (.chain []), .const (.str "done")])] },
    .create (some (.const (.str "Derived"))) (.const (.str "d")) [],
    .invoke (some (.const (.str "d"))) (.const (.str "open")) [],
    .invoke (some (.const (.str "d"))) (.const (.str "m")) []]

/-- The world up to a moment of that session. -/
def vaultWorld (n : Nat) : World :=
  (World.initial {}).replay ((Session.history 0 (World.initial {}) vault).take n)

/-- The private function that is called by its name is called by code of its class. -/
theorem callers_of_vault :
    ∃ f fn, Session.Stretch {} (vaultWorld 8) [.entered f (.body fn)] ∧
      fn.fullName = "::Base::key" ∧ fn.protection = .priv ∧
      ∃ g, (vaultWorld 8).stack.current? = some g ∧ g.scope = fn.owner := by
  obtain ⟨f, fn, hstretch, hsee⟩ := Session.exists_stretch {} 0 vault 8
    (a := (some "key", "::Base::key", Protection.priv))
    (fun s => (s.1.member, s.2.fullName, s.2.protection)) (by decide +kernel)
  simp only [Prod.mk.injEq] at hsee
  obtain ⟨hmember, hname, hpriv⟩ := hsee
  refine ⟨f, fn, hstretch, hname, hpriv, ?_⟩
  obtain ⟨⟨call, hcall⟩ | hlifecycle, haccess⟩ := callers_of_functions hstretch
  · refine ((haccess call hcall).2 hpriv).resolve_left ?_
    -- code that chains calls a function by its full name
    rintro rfl
    obtain ⟨-, g, -, -, -, -, rfl⟩ := Call.starts_onward_iff.mp hcall
    have hfull : some fn.fullName = some "key" := hmember
    rw [hname] at hfull
    exact absurd hfull (by decide)
  · obtain ⟨o, ⟨k, c, n, hn, -, -, rfl⟩ | ⟨-, rfl⟩⟩ := hlifecycle
    · have hkey : some n = some "key" := hmember
      rcases hn with rfl | rfl <;> exact absurd hkey (by decide)
    · have hfull : some fn.fullName = some "key" := hmember
      rw [hname] at hfull
      exact absurd hfull (by decide)

/-- **Chaining starts private functions for code of other classes.** -/
theorem exists_start_of_private :
    ¬ ∀ (o : EngineOptions) (w : World) (f : Frame) (fn : MemberFunction),
      Session.Stretch o w [.entered f (.body fn)] → fn.flags = {} → fn.protection = .priv →
      ∃ g, w.stack.current? = some g ∧ g.scope = fn.owner := by
  intro h
  obtain ⟨f, fn, hstretch, hsee⟩ := Session.exists_stretch {} 0 vault 13
    (a := (⟨0⟩, Protection.priv, {}))
    (fun s => (s.2.owner, s.2.protection, s.2.flags)) (by decide +kernel)
  simp only [Prod.mk.injEq] at hsee
  obtain ⟨howner, hpriv, hflags⟩ := hsee
  obtain ⟨g, hg, hscope⟩ := h {} (vaultWorld 13) f fn hstretch hflags hpriv
  have hderived : (vaultWorld 13).stack.current?.map (·.scope) = some ⟨1⟩ := by decide +kernel
  rw [hg, Option.map_some, hscope, howner] at hderived
  exact absurd hderived (by decide)

/-! ### The object of the frame -/

section

variable {w : World} {f : Frame} {fn : MemberFunction}

/-- A function that is no procedure is started without an object only by code that
chains and has none. -/
theorem Call.Starts.eq_onward {call : Call} (h : call.Starts w f fn)
    (hcommon : fn.flags.isCommon = false) (huser : fn.flags.isBuiltin = false)
    (hnone : f.object = none) :
    call = .onward ∧ ∃ g, w.stack.current? = some g ∧ g.object = none := by
  cases call with
  | method o n =>
    obtain ⟨-, c, -, -, rfl⟩ := Call.starts_method_iff.mp h
    simp [MemberFunction.callFrame, hcommon] at hnone
  | procedure k n =>
    obtain ⟨-, c, -, -, hkind, -⟩ := Call.starts_procedure_iff.mp h
    simp [hcommon, huser] at hkind
  | onward =>
    obtain ⟨-, g, hg, -, -, -, rfl⟩ := Call.starts_onward_iff.mp h
    refine ⟨rfl, g, hg, ?_⟩
    simpa [MemberFunction.callFrame, hcommon] using hnone

/-- **The object of the frame, wherever a body starts** in a session: a function that is
no procedure and no builtin method has one, unless code without an object chains to it.
No call by a name starts such a function without an object. -/
theorem receivers_of_functions {o : EngineOptions}
    (h : Session.Stretch o w [.entered f (.body fn)]) (hcommon : fn.flags.isCommon = false)
    (huser : fn.flags.isBuiltin = false) :
    (∃ receiver, f.object = some receiver) ∨
      Call.onward.Starts w f fn ∧ (∀ call : Call, call.Starts w f fn → call = .onward) ∧
        ∃ g, w.stack.current? = some g ∧ g.object = none := by
  cases hobject : f.object with
  | some receiver => exact Or.inl ⟨receiver, rfl⟩
  | none =>
    rcases h.exists_call with ⟨call, hcall⟩ | hlifecycle
    · obtain ⟨rfl, hcaller⟩ := hcall.eq_onward hcommon huser hobject
      exact Or.inr ⟨hcall, fun _ hother => (hother.eq_onward hcommon huser hobject).1, hcaller⟩
    · have hsome := hlifecycle.isSome_object
      rw [hobject] at hsome
      cases hsome

end

/-- Code that was called on an object goes on to a function on the same object. -/
theorem receivers_of_vault :
    ∃ f fn, Session.Stretch {} (vaultWorld 13) [.entered f (.body fn)] ∧
      fn.flags.isCommon = false ∧ fn.flags.isBuiltin = false ∧
      ∃ receiver, f.object = some receiver := by
  obtain ⟨f, fn, hstretch, hflags⟩ := Session.exists_stretch {} 0 vault 13
    (a := {}) (fun s => s.2.flags) (by decide +kernel)
  dsimp only at hflags
  refine ⟨f, fn, hstretch, by rw [hflags], by rw [hflags], ?_⟩
  refine (receivers_of_functions hstretch (by rw [hflags]) (by rw [hflags])).resolve_right ?_
  rintro ⟨-, -, g, (hg : (vaultWorld 13).stack.current? = some g), hobject⟩
  have hcaller : (vaultWorld 13).stack.current?.map (·.object) = some (some ⟨1⟩) := by
    decide +kernel
  rw [hg, Option.map_some, hobject] at hcaller
  cases hcaller

/-- Defines a class with a function, and one that inherits from it and has a procedure of
the same name, which chains. -/
def orphan : List Expr :=
  [.defineClass
      { name := "Base", members := [.method "m" .pub (.log (.const (.str "ran")))] },
    .defineClass
      { name := "Derived", inherits := ["Base"]
        members := [.procedure "m" (.sequence [.guarded (.chain []), .const (.str "done")])] },
    .callProc (some (.const (.str "Derived"))) (.const (.str "m")) []]

/-- **Chaining starts functions that are no procedures without an object.** -/
theorem exists_start_without_object :
    ¬ ∀ (o : EngineOptions) (w : World) (f : Frame) (fn : MemberFunction),
      Session.Stretch o w [.entered f (.body fn)] → fn.flags.isCommon = false →
      fn.flags.isBuiltin = false → ∃ receiver, f.object = some receiver := by
  intro h
  obtain ⟨f, fn, hstretch, hsee⟩ := Session.exists_stretch {} 0 orphan 4
    (a := (none, {})) (fun s => (s.1.object, s.2.flags)) (by decide +kernel)
  simp only [Prod.mk.injEq] at hsee
  obtain ⟨hobject, hflags⟩ := hsee
  obtain ⟨receiver, hreceiver⟩ := h {} _ f fn hstretch (by rw [hflags]) (by rw [hflags])
  rw [hobject] at hreceiver
  cases hreceiver

end ObjectDispatch
