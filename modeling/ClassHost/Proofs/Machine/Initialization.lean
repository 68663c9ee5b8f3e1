import ClassHost.Proofs.ClassTable
import ClassHost.Proofs.Machine.Execution
import ClassHost.Proofs.Machine.Journal

/-!
# What initialisations and calls do

Here is all that initialising a class and invoking a method do, once: `initializes_of_exec` lists
the ways in which a request to initialise a class can go, and `exec_invokeInitializer` and
`exec_invocation` say what becomes of a call. What holds of initialisations is proved from this
list, one case for each way.
-/

namespace ClassHost

variable {σ : Type} {engine : Engine σ} {fuel : Nat} {m m' : Machine σ} {thread : ThreadId}
  {type : ClassId}

namespace Machine

/-- The machine at the beginning of an attempt. -/
def begin (m : Machine σ) (type : ClassId) : Machine σ :=
  m.withTable (m.table.setState type .beingInitialized)

/-- The machine at the end of an attempt. -/
def finish (m : Machine σ) (type : ClassId) (succeeded : Bool) : Machine σ :=
  m.withTable (m.table.setState type (if succeeded then .fullyInitialized else .loaded))

theorem apply_note (event : Event) (m : Machine σ) :
    (Upkeep.note event).apply m = ((), m.note event) := rfl

theorem apply_transition {source target : ClassState} (h : m.table.stateOf type = source) :
    (Access.transition type source target).apply m =
      (true, m.withTable (m.table.setState type target)) := by
  change ((m.table.transition type source target).1,
    m.withTable (m.table.transition type source target).2) = _
  rw [ClassTable.transition_of_eq h]

end Machine

namespace Procedure

-- ---------------------------------------------------------------------------
-- Initialising a class
-- ---------------------------------------------------------------------------

/-- The ways in which initialising a class can go, with what is returned and left. -/
inductive Initializes (engine : Engine σ) (fuel : Nat) (thread : ThreadId) (type : ClassId)
    (m : Machine σ) : Except Halt (Except Throwable Unit) → Machine σ → Prop where
  /-- It is done or under way. -/
  | skipped (h : m.table.stateOf type = .fullyInitialized ∨
      m.table.stateOf type = .beingInitialized) :
      Initializes engine fuel thread type m (.ok (.ok ())) m
  | missing (h : m.table.stateOf type = .notLoaded) (error : Throwable) :
      Initializes engine fuel thread type m (.ok (.error error)) m
  /-- Array classes have no initialiser. -/
  | array (hloaded : m.table.stateOf type = .loaded) :
      Initializes engine fuel thread type m (.ok (.ok ()))
        (m.withTable (m.table.setState type .fullyInitialized))
  | succeeded (hloaded : m.table.stateOf type = .loaded) {middle : Machine σ}
      (hrun : (runInitializers thread type).exec engine fuel (m.begin type) =
        (.ok (.ok ()), middle)) :
      Initializes engine fuel thread type m (.ok (.ok ())) (middle.finish type true)
  | failed (hloaded : m.table.stateOf type = .loaded) {error : Throwable} {middle : Machine σ}
      (hrun : (runInitializers thread type).exec engine fuel (m.begin type) =
        (.ok (.error error), middle)) :
      Initializes engine fuel thread type m (.ok (.error error)) (middle.finish type false)
  /-- The attempt stays open. -/
  | halted (hloaded : m.table.stateOf type = .loaded) {halt : Halt} {middle : Machine σ}
      (hrun : (runInitializers thread type).exec engine fuel (m.begin type) =
        (.error halt, middle)) :
      Initializes engine fuel thread type m (.error halt) middle

theorem exec_attempt (m : Machine σ) :
    (attempt thread type).exec engine (fuel + 1) m =
      match (runInitializers thread type).exec engine (fuel + 1) m with
      | (.ok (.ok ()), middle) => (.ok (.ok ()), middle.finish type true)
      | (.ok (.error error), middle) => (.ok (.error error), middle.finish type false)
      | (.error halt, middle) => (.error halt, middle) := by
  unfold attempt
  rw [exec_bind, exec_outcome]
  rcases (runInitializers thread type).exec engine (fuel + 1) m with ⟨_ | _ | _, _⟩ <;> rfl

/-- **Initialising a class** goes in one of these ways. -/
theorem initializes_of_exec {r : Except Halt (Except Throwable Unit)}
    (h : (initialization thread type).exec engine (fuel + 1) m = (r, m')) :
    Initializes engine (fuel + 1) thread type m r m' := by
  unfold initialization at h
  rw [exec_bind, exec_observe] at h
  dsimp only at h
  -- the states first, then arrays, and last what becomes of the attempt
  split at h
  · rename_i hstate
    obtain ⟨rfl, rfl⟩ := Prod.mk.inj h
    exact .skipped (.inl hstate)
  · rename_i hstate
    obtain ⟨rfl, rfl⟩ := Prod.mk.inj h
    exact .skipped (.inr hstate)
  · rename_i hstate
    obtain ⟨rfl, rfl⟩ := Prod.mk.inj h
    exact .missing hstate _
  · rename_i hloaded
    split at h
    · obtain ⟨rfl, rfl⟩ := Prod.mk.inj h
      exact .array hloaded
    · rw [exec_bind, exec_access, Machine.apply_transition hloaded] at h
      change (attempt thread type).exec engine (fuel + 1)
        (m.withTable (m.table.setState type .beingInitialized)) = (r, m') at h
      rw [exec_attempt] at h
      split at h
      · rename_i hrun
        obtain ⟨rfl, rfl⟩ := Prod.mk.inj h
        exact .succeeded hloaded hrun
      · rename_i hrun
        obtain ⟨rfl, rfl⟩ := Prod.mk.inj h
        exact .failed hloaded hrun
      · rename_i hrun
        obtain ⟨rfl, rfl⟩ := Prod.mk.inj h
        exact .halted hloaded hrun

-- ---------------------------------------------------------------------------
-- Calls
-- ---------------------------------------------------------------------------

theorem exec_invokeInitializer (m : Machine σ) :
    (invokeInitializer thread type).exec engine (fuel + 1) m =
      match m.table.method? .static type initializerKey with
      | none => (.ok (.ok ()), m)
      | some method => exec engine (fuel + 1) (do let _ ← invoke thread method []) m := by
  unfold invokeInitializer
  rw [exec_bind, exec_observe]
  dsimp only
  cases m.table.method? .static type initializerKey <;> rfl

theorem exec_invocation (method : MethodRef) (arguments : List Value) (m : Machine σ) :
    (invocation thread method arguments).exec engine (fuel + 1) m =
      match m.overrides.find? (m.className method.declaring) method.key with
      | some entry => (runOverride thread method arguments entry).exec engine (fuel + 1) m
      | none =>
        match Machine.perform engine (fuel + 1) (.callEngine ⟨thread, method, arguments⟩)
          (m.note (.called ⟨thread, method, arguments⟩)) with
        | (.ok (.ok result), middle) => (.ok (.ok result), middle.note (.returned true))
        | (.ok (.error error), middle) => (.ok (.error error), middle.note (.returned false))
        | (.error halt, middle) => (.error halt, middle) := by
  unfold invocation
  rw [exec_bind, exec_observe]
  dsimp only
  cases m.overrides.find? (m.className method.declaring) method.key with
  | some entry => rfl
  | none =>
    dsimp only
    rw [exec_bind, exec_upkeep, Machine.apply_note]
    dsimp only
    rw [exec_bind, exec_outcome, exec_callEngine]
    -- a call that was stopped is not noted again
    rcases Machine.perform engine (fuel + 1) (.callEngine ⟨thread, method, arguments⟩)
      (m.note (.called ⟨thread, method, arguments⟩)) with ⟨_ | _ | _, _⟩ <;> rfl

end Procedure

end ClassHost
