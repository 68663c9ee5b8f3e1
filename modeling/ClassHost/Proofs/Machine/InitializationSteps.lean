import ClassHost.Proofs.Machine.Initialization
import ClassHost.Proofs.Machine.TableSteps

/-!
# The steps of an initialisation

What initialising a class asks for, step by step, next to what becomes of it. A class that is not
loaded, or is done or under way, is only looked at. An array class is marked as initialised. Any
other class has an attempt made on it: it is moved to being initialised, its initialisers run, and a
store closes the attempt.

Whoever was told that a class is initialised finds it claimed: it is initialised, or an attempt on
it is under way (`claimed_of_initialization`). So before a class runs its own initialiser, its super
class is claimed (`superClaimed_of_initializeSuper`).
-/

namespace ClassHost

variable {σ : Type} {engine : Engine σ} {fuel : Nat} {m m' : Machine σ} {thread : ThreadId}
  {type : ClassId}

/-- The super class that a class names, if it names one, is there and claimed. -/
def Machine.SuperClaimed (m : Machine σ) (type : ClassId) : Prop :=
  ∀ superName, (m.table.get? type).bind LoadedClass.superName? = some superName →
    ∃ superType, m.table.find? superName = some superType ∧ m.Claimed superType

theorem Machine.perform_initClass (engine : Engine σ) (fuel : Nat) (thread : ThreadId)
    (type : ClassId) (m : Machine σ) :
    Machine.perform engine (fuel + 1) (.request (.initClass thread type)) m =
      (Procedure.initialization thread type).exec engine fuel m := rfl

theorem Machine.asked_initClass (engine : Engine σ) (fuel : Nat) (thread : ThreadId)
    (type : ClassId) (m : Machine σ) :
    Machine.asked engine fuel (.request (.initClass thread type)) m =
      (Procedure.initialization thread type).asked engine fuel m := rfl

namespace Procedure

-- ---------------------------------------------------------------------------
-- Steps
-- ---------------------------------------------------------------------------

/-- The steps that open an attempt on a class that is loaded. -/
def openingSteps (type : ClassId) (m : Machine σ) : List (Asked σ) :=
  [⟨.request (.access .observe), m⟩,
    ⟨.request (.access (.transition type .loaded .beingInitialized)), m⟩]

/-- The store that closes an attempt, by what its initialisers ended with. -/
def closing (type : ClassId) : Except Halt (Except Throwable Unit) × Machine σ → List (Asked σ)
  | (.ok (.ok ()), m) => [⟨.request (.access (.setState type .fullyInitialized)), m⟩]
  | (.ok (.error _), m) => [⟨.request (.access (.setState type .loaded)), m⟩]
  | (.error _, _) => []

theorem instant_openingSteps (type : ClassId) (m : Machine σ) :
    ∀ part ∈ openingSteps type m, part.step.Instant := by
  simp [openingSteps, Step.Instant]

theorem instant_closing (type : ClassId) (result : Except Halt (Except Throwable Unit) × Machine σ) :
    ∀ part ∈ closing type result, part.step.Instant := by
  rcases result with ⟨_ | _ | _, middle⟩
  · exact fun _ hmem => absurd hmem List.not_mem_nil
  · simp [closing, Step.Instant]
  · simp [closing, Step.Instant]

theorem asked_initialization_of_ne (h : m.table.stateOf type ≠ .loaded) :
    (initialization thread type).asked engine (fuel + 1) m =
      [⟨.request (.access .observe), m⟩] := by
  unfold initialization
  rw [asked_bind, asked_observe, exec_observe]
  dsimp only
  split
  · rfl
  · rfl
  · rfl
  · rename_i hloaded
    exact absurd hloaded h

theorem asked_initialization_of_array (hloaded : m.table.stateOf type = .loaded)
    (harray : ((m.table.get? type).map LoadedClass.isArray).getD false = true) :
    (initialization thread type).asked engine (fuel + 1) m =
      [⟨.request (.access .observe), m⟩,
        ⟨.request (.access (.setState type .fullyInitialized)), m⟩] := by
  unfold initialization
  rw [asked_bind, asked_observe, exec_observe]
  dsimp only
  rw [hloaded]
  dsimp only
  rw [if_pos harray, asked_access]
  rfl

theorem asked_invokeInitializer (m : Machine σ) :
    (invokeInitializer thread type).asked engine (fuel + 1) m =
      ⟨.request (.access .observe), m⟩ ::
        match m.table.method? .static type initializerKey with
        | none => []
        | some method => [⟨.request (.invoke thread method []), m⟩] := by
  unfold invokeInitializer
  rw [asked_bind, asked_observe, exec_observe]
  dsimp only
  cases m.table.method? .static type initializerKey with
  | none => rfl
  | some method =>
    dsimp only
    rw [asked_bind, asked_invoke]
    rcases (invoke thread method []).exec engine (fuel + 1) m with ⟨_ | _ | _, _⟩ <;> rfl

theorem asked_attempt (m : Machine σ) :
    (attempt thread type).asked engine (fuel + 1) m =
      (runInitializers thread type).asked engine (fuel + 1) m ++
        closing type ((runInitializers thread type).exec engine (fuel + 1) m) := by
  unfold attempt
  rw [asked_bind, asked_outcome, exec_outcome]
  rcases (runInitializers thread type).exec engine (fuel + 1) m with ⟨_ | _ | _, _⟩ <;> rfl

theorem asked_initialization_of_loaded (hloaded : m.table.stateOf type = .loaded)
    (harray : ((m.table.get? type).map LoadedClass.isArray).getD false = false) :
    (initialization thread type).asked engine (fuel + 1) m =
      openingSteps type m ++ ((runInitializers thread type).asked engine (fuel + 1) (m.begin type) ++
        closing type ((runInitializers thread type).exec engine (fuel + 1) (m.begin type))) := by
  unfold initialization
  rw [asked_bind, asked_observe, exec_observe]
  dsimp only
  rw [hloaded]
  dsimp only
  -- no array, so it is moved, and the move succeeds since the class is loaded
  rw [if_neg (by rw [harray]; decide), asked_bind, asked_access, exec_access,
    Machine.apply_transition hloaded]
  dsimp only
  rw [if_pos rfl, asked_attempt]
  rfl

/-- An attempt on a class that is loaded and no array class. -/
theorem exec_initialization_of_loaded (hloaded : m.table.stateOf type = .loaded)
    (harray : ((m.table.get? type).map LoadedClass.isArray).getD false = false) :
    (initialization thread type).exec engine (fuel + 1) m =
      match (runInitializers thread type).exec engine (fuel + 1) (m.begin type) with
      | (.ok (.ok ()), middle) => (.ok (.ok ()), middle.finish type true)
      | (.ok (.error error), middle) => (.ok (.error error), middle.finish type false)
      | (.error halt, middle) => (.error halt, middle) := by
  unfold initialization
  rw [exec_bind, exec_observe]
  dsimp only
  rw [hloaded]
  dsimp only
  rw [if_neg (by rw [harray]; decide), exec_bind, exec_access, Machine.apply_transition hloaded]
  exact exec_attempt _

theorem exec_initialization_of_array (hloaded : m.table.stateOf type = .loaded)
    (harray : ((m.table.get? type).map LoadedClass.isArray).getD false = true) :
    (initialization thread type).exec engine (fuel + 1) m =
      (.ok (.ok ()), m.withTable (m.table.setState type .fullyInitialized)) := by
  unfold initialization
  rw [exec_bind, exec_observe]
  dsimp only
  rw [hloaded]
  dsimp only
  rw [if_pos harray]
  rfl

-- ---------------------------------------------------------------------------
-- Claimed classes
-- ---------------------------------------------------------------------------

/-- A class that is there, and not loaded any more, is claimed. -/
theorem claimed_of_ne (hpresent : m.table.stateOf type ≠ .notLoaded)
    (hne : m.table.stateOf type ≠ .loaded) : m.Claimed type := by
  cases hstate : m.table.stateOf type with
  | notLoaded => exact absurd hstate hpresent
  | loaded => exact absurd hstate hne
  | beingInitialized => exact .inl hstate
  | fullyInitialized => exact .inr hstate

/-- There is nothing to do for a class that is claimed. -/
theorem exec_initialization_of_claimed (h : m.Claimed type) :
    (initialization thread type).exec engine (fuel + 1) m = (.ok (.ok ()), m) := by
  unfold initialization
  rw [exec_bind, exec_observe]
  dsimp only
  rcases h with hstate | hstate
  · rw [hstate]
    rfl
  · rw [hstate]
    rfl

/-- Initialising a class that is neither loaded nor gone changes nothing. -/
theorem eq_of_initialization_of_ne (hstate : m.table.stateOf type ≠ .loaded)
    {r : Except Halt (Except Throwable Unit)}
    (h : (initialization thread type).exec engine (fuel + 1) m = (r, m')) : m' = m := by
  cases initializes_of_exec h with
  | skipped _ => rfl
  | missing _ _ => rfl
  | array hloaded => exact absurd hloaded hstate
  | succeeded hloaded _ => exact absurd hloaded hstate
  | failed hloaded _ => exact absurd hloaded hstate
  | halted hloaded _ => exact absurd hloaded hstate

/-- A class that was to be initialised, and no failure was returned, is claimed. -/
theorem claimed_of_initialization
    (h : (initialization thread type).exec engine (fuel + 1) m = (.ok (.ok ()), m')) :
    m'.Claimed type := by
  cases initializes_of_exec h with
  | skipped hstate => exact hstate.symm
  | array hloaded =>
    obtain ⟨c, hget⟩ := ClassTable.exists_get?_of_stateOf (by rw [hloaded]; decide)
    exact .inr (ClassTable.stateOf_setState_self hget)
  | @succeeded hloaded middle hrun =>
    obtain ⟨c, hget⟩ := ClassTable.exists_get?_of_stateOf (by rw [hloaded]; decide)
    have hkeeps := keeps_exec engine (fuel + 1) (runInitializers thread type) (m.begin type)
    rw [hrun] at hkeeps
    obtain ⟨c', hget', -⟩ := hkeeps.get? (ClassTable.get?_setState_self hget)
    exact .inr (ClassTable.stateOf_setState_self hget')

theorem claimed_of_initClass
    (h : Machine.perform engine fuel (.request (.initClass thread type)) m =
      (.ok (.ok ()), m')) : m'.Claimed type := by
  match fuel, h with
  | 0, h => exact nomatch h
  | 1, h => exact nomatch h
  | fuel + 2, h => exact claimed_of_initialization h

/-- Before a class runs its own initialiser, its super class is claimed. -/
theorem superClaimed_of_initializeSuper {c : LoadedClass} (hget : m.table.get? type = some c)
    (h : (initializeSuper thread type).exec engine fuel m = (.ok (.ok ()), m')) :
    m'.SuperClaimed type := by
  intro superName hsuper
  have hkeeps := keeps_exec engine fuel (initializeSuper thread type) m
  rw [h] at hkeeps
  obtain ⟨c', hget', -, hkind⟩ := hkeeps.get? hget
  -- the name of the super class is the same before and after
  have hname : c.superName? = some superName := by
    rw [hget', Option.bind_some, LoadedClass.superName?, hkind] at hsuper
    exact hsuper
  unfold initializeSuper at h
  obtain ⟨seen, first, hobserve, h⟩ := exec_bind_ok h
  have happly : (m, m) = (seen, first) := exec_access_ok hobserve
  obtain ⟨rfl, rfl⟩ := Prod.mk.inj happly
  rw [hget, Option.bind_some, hname] at h
  obtain ⟨found, middle, hload, h⟩ := exec_bind_ok h
  cases found with
  | none => exact nomatch h
  | some superType =>
    have happly : (Access.load superName).apply m = (.ok (some superType), middle) :=
      Machine.apply_of_perform_access (perform_of_exec hload)
    obtain ⟨hreply, rfl⟩ := Prod.mk.inj happly
    -- the super class has been loaded under that name, and stays where it is while it is initialised
    have hfound := (Loader.spec_load m.classPath superName m.loader _ _
      (Prod.ext hreply rfl)).found superType rfl
    have hlast := keeps_exec engine fuel (initClass thread superType) (Machine.load superName m).2
    change exec engine fuel (initClass thread superType) (Machine.load superName m).2 = _ at h
    rw [h] at hlast
    rw [exec_initClass] at h
    exact ⟨superType, hlast.find? hfound, claimed_of_initClass h⟩

end Procedure
end ClassHost
