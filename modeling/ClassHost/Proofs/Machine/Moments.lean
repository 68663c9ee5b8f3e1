import ClassHost.Proofs.Machine.Execution

/-!
# The moments of a run

A run carries out accesses: those of its guest, those of the machine's own procedures and those of
the engine, at whatever depth. Whoever looks at a machine does so by an access. A `Moment` is one
access together with the machine that it finds, and `Machine.moments` lists the moments of a run in
order. The list is computed along with the run, from the same results: there is an entry for every
access that `Machine.perform` carries out, also if the run stops later, and there is no other.

`Machine.throughout_moments` is the induction over all of that, once. What accesses preserve holds
at every moment of every run and at its end. An invariant may speak of the moments that have passed,
so it can say what the run has done so far.
-/

namespace ClassHost

variable {σ α : Type}

/-- An access that is carried out, and the machine that it finds. -/
structure Moment (σ : Type) where
  machine : Machine σ
  access : Access σ

/-- The moments of a program, given those of every operation. Nothing follows an operation that
does not reply. -/
def Program.moments {Op : Type} {Reply : Op → Type} (perform : (op : Op) → Running σ (Reply op))
    (within : Op → Machine σ → List (Moment σ)) :
    Program Op Reply α → Machine σ → List (Moment σ)
  | .done _, _ => []
  | .ask op next, m =>
    within op m ++
      match perform op m with
      | (.ok reply, m') => (next reply).moments perform within m'
      | (.error _, _) => []

namespace Machine

/-- The moments of a step. -/
def momentsOf (engine : Engine σ) : Nat → Step σ → Machine σ → List (Moment σ)
  | 0, _, _ => []
  | fuel + 1, step, m =>
    match step with
    | .request (.access access) => [⟨m, access⟩]
    | .request (.initClass thread type) =>
      (Procedure.initialization thread type).run.moments (perform engine fuel)
        (momentsOf engine fuel) m
    | .request (.invoke thread method arguments) =>
      (Procedure.invocation thread method arguments).run.moments (perform engine fuel)
        (momentsOf engine fuel) m
    | .request (.boot thread arguments) =>
      (Procedure.booting thread arguments).run.moments (perform engine fuel)
        (momentsOf engine fuel) m
    | .request (.supervise entry arguments) =>
      (Procedure.mainThread entry arguments).run.moments (perform engine fuel)
        (momentsOf engine fuel) { m with registry := m.registry.enter }
    | .request .panic => []
    | .callEngine call =>
      (engine.respond call).moments (fun request => perform engine fuel (.request request))
        (fun request => momentsOf engine fuel (.request request)) m
    | .upkeep _ => []

/-- The moments of a run of a guest. -/
def moments (engine : Engine σ) (fuel : Nat) (guest : Guest σ α) (m : Machine σ) :
    List (Moment σ) :=
  Program.moments (fun request => perform engine fuel (.request request))
    (fun request => momentsOf engine fuel (.request request)) guest m

end Machine

-- ---------------------------------------------------------------------------
-- Invariants of moments
-- ---------------------------------------------------------------------------

/-- What holds of the moments that have passed and the machine as it is then, whatever the machine
does. -/
structure Invariant (good : List (Moment σ) → Machine σ → Prop) : Prop where
  access : ∀ {past m} (access : Access σ), good past m →
    good (past ++ [⟨m, access⟩]) (access.apply m).2
  upkeep : ∀ {past m} (upkeep : Upkeep), good past m → good past (upkeep.apply m).2
  threads : ∀ {past m} (registry : Registry σ) (memory : σ), good past m →
    good past { m with registry, memory }

/-- Moments that lead from a past to a last machine, and what holds at each of them and then. -/
structure Throughout (good : List (Moment σ) → Machine σ → Prop)
    (past ms : List (Moment σ)) (last : Machine σ) : Prop where
  moment : ∀ before now after, ms = before ++ now :: after → good (past ++ before) now.machine
  last : good (past ++ ms) last

variable {good : List (Moment σ) → Machine σ → Prop} {past ms ms' : List (Moment σ)}
  {m m' : Machine σ}

theorem throughout_nil (h : good past m) : Throughout good past [] m where
  moment before now after hsplit := by simp at hsplit
  last := by rwa [List.append_nil]

theorem throughout_access {access : Access σ} (h : good past m)
    (hlast : good (past ++ [⟨m, access⟩]) m') : Throughout good past [⟨m, access⟩] m' where
  moment before now after hsplit := by
    obtain ⟨rfl, hnow⟩ | ⟨_, -, hnil⟩ := List.cons_eq_append_iff.mp hsplit
    · obtain ⟨rfl, -⟩ := List.cons.inj hnow
      rwa [List.append_nil]
    · simp at hnil
  last := hlast

theorem Throughout.append (h : Throughout good past ms m)
    (h' : Throughout good (past ++ ms) ms' m') : Throughout good past (ms ++ ms') m' where
  moment before now after hsplit := by
    rcases List.append_eq_append_iff.mp hsplit with ⟨middle, rfl, hsplit'⟩ | ⟨middle, rfl, hsplit'⟩
    · -- a moment of the second stretch: the whole first one is past
      rw [← List.append_assoc]
      exact h'.moment middle now after hsplit'
    · cases middle with
      | nil =>
        -- the first moment of the second stretch
        have hfirst := h'.moment [] now after hsplit'.symm
        rwa [List.append_nil, List.append_nil] at hfirst
      | cons first middle =>
        obtain ⟨rfl, -⟩ := List.cons.inj hsplit'
        exact h.moment before now middle rfl
  last := by
    rw [← List.append_assoc]
    exact h'.last

theorem throughout_program {Op : Type} {Reply : Op → Type}
    {perform : (op : Op) → Running σ (Reply op)} {within : Op → Machine σ → List (Moment σ)}
    (hop : ∀ op {past m}, good past m → Throughout good past (within op m) (perform op m).2)
    (p : Program Op Reply α) (h : good past m) :
    Throughout good past (p.moments perform within m) (p.run perform m).2 := by
  induction p generalizing past m with
  | done result => exact throughout_nil h
  | ask op next ih =>
    -- by induction on the program; what was past grows by the moments of each operation
    have hfirst := hop op h
    rw [Program.moments, Program.run, Effect.bind_apply]
    rcases hrun : perform op m with ⟨halt | reply, middle⟩
    · rw [hrun] at hfirst
      simpa using hfirst
    · rw [hrun] at hfirst
      exact hfirst.append (ih reply hfirst.last)

namespace Machine

/-- Running a thread and waiting for the others changes only the registry and the memory, besides
what the thread does. -/
theorem good_of_supervised (hinvariant : Invariant good) (body : Running σ (Except Fatal Unit))
    (h : good past (body { m with registry := m.registry.enter }).2) :
    good past (supervised body m).2 := by
  obtain ⟨registry, memory, hlast, -⟩ := supervised_cases body m
  rw [hlast]
  exact hinvariant.threads registry memory h

/-- **One step.** -/
theorem throughout_perform (hinvariant : Invariant good) (engine : Engine σ) (fuel : Nat)
    (step : Step σ) (h : good past m) :
    Throughout good past (momentsOf engine fuel step m) (perform engine fuel step m).2 := by
  induction fuel generalizing step past m with
  | zero => exact throughout_nil h
  | succ fuel ih =>
    -- accesses are the moments themselves; the rest has none of its own
    match step with
    | .request (.access access) => exact throughout_access h (hinvariant.access access h)
    | .request (.initClass thread type) => exact throughout_program (fun step => ih step) _ h
    | .request (.invoke thread method arguments) =>
      exact throughout_program (fun step => ih step) _ h
    | .request (.boot thread arguments) => exact throughout_program (fun step => ih step) _ h
    | .request (.supervise entry arguments) =>
      have hbody := throughout_program (fun step => ih step)
        (Procedure.mainThread entry arguments).run
        (hinvariant.threads m.registry.enter m.memory h)
      exact ⟨hbody.moment, good_of_supervised hinvariant _ hbody.last⟩
    | .request .panic => exact throughout_nil h
    | .callEngine call => exact throughout_program (fun request => ih (.request request)) _ h
    | .upkeep upkeep => exact throughout_nil (hinvariant.upkeep upkeep h)

/-- What nothing undoes holds after a procedure if it held before. -/
theorem holds_exec {ε : Type} {good : Machine σ → Prop} (hinvariant : Invariant fun _ => good)
    (engine : Engine σ) (fuel : Nat) (procedure : Procedure σ ε α) (h : good m) :
    good (procedure.exec engine fuel m).2 := by
  have hall : Throughout (fun _ => good) []
      (procedure.run.moments (perform engine fuel) (momentsOf engine fuel) m)
      (procedure.exec engine fuel m).2 :=
    throughout_program (fun step {_ _} => throughout_perform hinvariant engine fuel step)
      procedure.run h
  exact hall.last

/-- **Whole runs.** -/
theorem throughout_moments (hinvariant : Invariant good) (engine : Engine σ) (fuel : Nat)
    (guest : Guest σ α) (h : good past m) :
    Throughout good past (moments engine fuel guest m) (run engine fuel guest m).2 :=
  throughout_program (fun request => throughout_perform hinvariant engine fuel (.request request))
    guest h

end Machine

end ClassHost
