import ClassHost.Proofs.Boot.Steps
import ClassHost.Proofs.Machine.Evolution
import ClassHost.Proofs.Machine.Trace

/-!
# The stages of a main thread

A main thread starts the machine, finds the entry class, looks for its main method, initialises the
class, and fills the array of arguments. Each stage needs the ones before it, and the first one that
fails ends the thread.

`Prepares` lists the ways in which that can go, one for each stage that can fail and one for a
thread that is ready, each with the machine that is left. `prepares_iff` says that the list is what
the stages compute, so it is complete, and `Prepares.unique` that no two of its cases meet.
`asked_preparation` lists the steps that the stages consist of.
-/

namespace ClassHost

variable {σ : Type}

-- ---------------------------------------------------------------------------
-- The stages
-- ---------------------------------------------------------------------------

/-- The call that a program is entered by. -/
structure EntryCall where
  type : ClassId
  main : MethodRef
  array : ObjectId
  deriving Repr, DecidableEq

/-- How the search for the entry class can go. -/
inductive FindsEntry (m : Machine σ) :
    EntryClass → Except Fatal ClassId → Machine σ → Prop where
  | found {name : String} {type : ClassId} {m' : Machine σ}
      (h : Machine.load name m = (.ok (some type), m')) : FindsEntry m (.named name) (.ok type) m'
  | unknown {name : String} {m' : Machine σ} (h : Machine.load name m = (.ok none, m')) :
      FindsEntry m (.named name) (.error (.classNotFound name)) m'
  | unloadable {name : String} {cause : Throwable} {m' : Machine σ}
      (h : Machine.load name m = (.error cause, m')) :
      FindsEntry m (.named name) (.error (.load name cause)) m'
  | defined {bytes : Bytes} {type : ClassId} {m' : Machine σ}
      (h : Machine.loadBytes bytes m = (.ok type, m')) : FindsEntry m (.ofBytes bytes) (.ok type) m'
  | malformed {bytes : Bytes} {cause : Throwable} {m' : Machine σ}
      (h : Machine.loadBytes bytes m = (.error cause, m')) :
      FindsEntry m (.ofBytes bytes) (.error (.load Loader.streamName cause)) m'

/-- How the stages before the entry can go: which one fails first and with what, or which call they
lead to. -/
inductive Prepares (engine : Engine σ) (fuel : Nat) (thread : ThreadId) (entry : EntryClass)
    (arguments : List String) (m : Machine σ) : Except Fatal EntryCall → Machine σ → Prop where
  | unbooted {fatal : Fatal} {m' : Machine σ}
      (hboot : Machine.perform engine fuel (.request (.boot thread arguments)) m =
        (.ok (.error fatal), m')) :
      Prepares engine fuel thread entry arguments m (.error fatal) m'
  | unfound {fatal : Fatal} {booted m' : Machine σ}
      (hboot : Machine.perform engine fuel (.request (.boot thread arguments)) m =
        (.ok (.ok ()), booted))
      (hentry : FindsEntry booted entry (.error fatal) m') :
      Prepares engine fuel thread entry arguments m (.error fatal) m'
  /-- The first method of the key is not there, or not static. -/
  | undeclared {type : ClassId} {booted found : Machine σ}
      (hboot : Machine.perform engine fuel (.request (.boot thread arguments)) m =
        (.ok (.ok ()), booted))
      (hentry : FindsEntry booted entry (.ok type) found)
      (hmain : found.table.method? .static type Procedure.mainKey = none) :
      Prepares engine fuel thread entry arguments m
        (.error (.missingMethod (found.className type) Procedure.mainKey)) found
  | uninitialized {type : ClassId} {main : MethodRef} {cause : Throwable}
      {booted found m' : Machine σ}
      (hboot : Machine.perform engine fuel (.request (.boot thread arguments)) m =
        (.ok (.ok ()), booted))
      (hentry : FindsEntry booted entry (.ok type) found)
      (hmain : found.table.method? .static type Procedure.mainKey = some main)
      (hinit : Machine.perform engine fuel (.request (.initClass thread type)) found =
        (.ok (.error cause), m')) :
      Prepares engine fuel thread entry arguments m
        (.error (.initialization (found.className type) cause)) m'
  | unfilled {type : ClassId} {main : MethodRef} {cause : Throwable}
      {booted found initialized m' : Machine σ}
      (hboot : Machine.perform engine fuel (.request (.boot thread arguments)) m =
        (.ok (.ok ()), booted))
      (hentry : FindsEntry booted entry (.ok type) found)
      (hmain : found.table.method? .static type Procedure.mainKey = some main)
      (hinit : Machine.perform engine fuel (.request (.initClass thread type)) found =
        (.ok (.ok ()), initialized))
      (harray : Machine.newStringArray arguments initialized = (.error cause, m')) :
      Prepares engine fuel thread entry arguments m (.error (.load CoreName.stringArray cause)) m'
  | ready {type : ClassId} {main : MethodRef} {array : ObjectId}
      {booted found initialized m' : Machine σ}
      (hboot : Machine.perform engine fuel (.request (.boot thread arguments)) m =
        (.ok (.ok ()), booted))
      (hentry : FindsEntry booted entry (.ok type) found)
      (hmain : found.table.method? .static type Procedure.mainKey = some main)
      (hinit : Machine.perform engine fuel (.request (.initClass thread type)) found =
        (.ok (.ok ()), initialized))
      (harray : Machine.newStringArray arguments initialized = (.ok array, m')) :
      Prepares engine fuel thread entry arguments m (.ok ⟨type, main, array⟩) m'

namespace Procedure

/-- The stages of a main thread before it enters the program. -/
def preparation (thread : ThreadId) (entry : EntryClass) (arguments : List String) :
    Procedure σ Fatal EntryCall := do
  boot thread arguments
  let type ← entryType entry
  let main ← declared .static type mainKey
  initialized thread type
  let array ← orFatal (.load CoreName.stringArray) (newStringArray arguments)
  return { type, main, array }

/-- Enters the program. -/
def entering (thread : ThreadId) (call : EntryCall) : Procedure σ Fatal Unit := do
  let m ← observe
  let _ ← orFatal (.uncaughtException (m.className call.type))
    (invoke thread call.main [.object call.array])

/-- A main thread makes its control block, prepares, and enters the program. -/
theorem mainThread_eq (entry : EntryClass) (arguments : List String) :
    (mainThread entry arguments : Procedure σ Fatal Unit) =
      access (.newThread mainThreadName) >>= fun thread =>
        preparation thread entry arguments >>= entering thread := by
  unfold mainThread preparation entering
  simp only [bind_assoc, pure_bind]

variable {engine : Engine σ} {fuel : Nat} {thread : ThreadId} {entry : EntryClass}
  {arguments : List String} {m m' : Machine σ} {outcome : Except Fatal EntryCall}

theorem exec_entryType_named (name : String) :
    exec engine (fuel + 1) (entryType (.named name)) m =
      match Machine.load name m with
      | (.ok (some type), m') => (.ok (.ok type), m')
      | (.ok none, m') => (.ok (.error (.classNotFound name)), m')
      | (.error cause, m') => (.ok (.error (.load name cause)), m') := by
  have hload : exec engine (fuel + 1) (load name) m =
      (.ok (Machine.load name m).1, (Machine.load name m).2) := rfl
  rw [entryType, loadRequired, exec_bind, exec_orFatal, hload]
  rcases Machine.load name m with ⟨cause | _ | type, loaded⟩ <;> rfl

theorem exec_entryType_ofBytes (bytes : Bytes) :
    exec engine (fuel + 1) (entryType (.ofBytes bytes)) m =
      match Machine.loadBytes bytes m with
      | (.ok type, m') => (.ok (.ok type), m')
      | (.error cause, m') => (.ok (.error (.load Loader.streamName cause)), m') := by
  have hload : exec engine (fuel + 1) (loadBytes bytes) m =
      (.ok (Machine.loadBytes bytes m).1, (Machine.loadBytes bytes m).2) := rfl
  rw [entryType, exec_orFatal, hload]
  rcases Machine.loadBytes bytes m with ⟨cause | type, loaded⟩ <;> rfl

/-- The search for the entry class goes in one of the ways listed. -/
theorem findsEntry_iff {found : Except Fatal ClassId} :
    exec engine (fuel + 1) (entryType entry) m = (.ok found, m') ↔ FindsEntry m entry found m' := by
  constructor
  · intro h
    cases entry with
    | named name =>
      rw [exec_entryType_named] at h
      -- each result of the lookup is one constructor of the relation
      rcases hload : Machine.load name m with ⟨cause | _ | type, loaded⟩ <;>
      · rw [hload] at h
        obtain ⟨rfl, rfl⟩ := Effect.eq_of_ok h
        first | exact .found hload | exact .unknown hload | exact .unloadable hload
    | ofBytes bytes =>
      rw [exec_entryType_ofBytes] at h
      rcases hload : Machine.loadBytes bytes m with ⟨cause | type, loaded⟩ <;>
      · rw [hload] at h
        obtain ⟨rfl, rfl⟩ := Effect.eq_of_ok h
        first | exact .defined hload | exact .malformed hload
  · intro h
    cases h with
    | found hload => rw [exec_entryType_named, hload]
    | unknown hload => rw [exec_entryType_named, hload]
    | unloadable hload => rw [exec_entryType_named, hload]
    | defined hload => rw [exec_entryType_ofBytes, hload]
    | malformed hload => rw [exec_entryType_ofBytes, hload]

theorem exec_declared (kind : MethodKind) (type : ClassId) (key : MethodKey) :
    exec engine (fuel + 1) (declared kind type key) m =
      match m.table.method? kind type key with
      | some method => (.ok (.ok method), m)
      | none => (.ok (.error (.missingMethod (m.className type) key)), m) := by
  unfold declared
  rw [exec_bind, exec_observe]
  dsimp only
  cases m.table.method? kind type key with
  | none => rfl
  | some method => rfl

theorem exec_initialized (type : ClassId) :
    exec engine (fuel + 1) (initialized thread type) m =
      match Machine.perform engine (fuel + 1) (.request (.initClass thread type)) m with
      | (.ok (.ok ()), m') => (.ok (.ok ()), m')
      | (.ok (.error cause), m') => (.ok (.error (.initialization (m.className type) cause)), m')
      | (.error halt, m') => (.error halt, m') := by
  unfold initialized
  rw [exec_bind, exec_observe]
  dsimp only
  rw [exec_orFatal, exec_initClass]
  rcases Machine.perform engine (fuel + 1) (.request (.initClass thread type)) m with
    ⟨halt | cause | done, m'⟩ <;> rfl

theorem exec_argumentArray (arguments : List String) :
    exec engine (fuel + 1) (orFatal (.load CoreName.stringArray) (newStringArray arguments)) m =
      match Machine.newStringArray arguments m with
      | (.ok array, m') => (.ok (.ok array), m')
      | (.error cause, m') => (.ok (.error (.load CoreName.stringArray cause)), m') := by
  have hmake : exec engine (fuel + 1) (newStringArray arguments) m =
      (.ok (Machine.newStringArray arguments m).1, (Machine.newStringArray arguments m).2) := rfl
  rw [exec_orFatal, hmake]
  rcases Machine.newStringArray arguments m with ⟨cause | array, filled⟩ <;> rfl

/-- **The stages before the entry** go in one of the ways listed, and the list says in which. -/
theorem prepares_iff :
    exec engine (fuel + 1) (preparation thread entry arguments) m = (.ok outcome, m') ↔
      Prepares engine (fuel + 1) thread entry arguments m outcome m' := by
  constructor
  · intro h
    unfold preparation at h
    -- forwards, part by part: the part that failed names the constructor
    rcases exec_bind_eq_ok.mp h with ⟨_, booted, hboot, h⟩ | ⟨fatal, rfl, hboot⟩
    swap
    · exact .unbooted (exec_boot thread arguments ▸ hboot)
    rw [exec_boot] at hboot
    rcases exec_bind_eq_ok.mp h with ⟨type, found, hentry, h⟩ | ⟨fatal, rfl, hentry⟩
    swap
    · exact .unfound hboot (findsEntry_iff.mp hentry)
    rw [findsEntry_iff] at hentry
    rw [exec_bind, exec_declared] at h
    cases hmain : found.table.method? .static type mainKey with
    | none =>
      rw [hmain] at h
      obtain ⟨rfl, rfl⟩ := Effect.eq_of_ok h
      exact .undeclared hboot hentry hmain
    | some main =>
      rw [hmain] at h
      dsimp only at h
      rw [exec_bind, exec_initialized] at h
      rcases hinit : Machine.perform engine (fuel + 1) (.request (.initClass thread type)) found with
        ⟨halt | cause | _, initialized⟩
      · rw [hinit] at h
        exact nomatch (Prod.mk.inj h).1
      · rw [hinit] at h
        obtain ⟨rfl, rfl⟩ := Effect.eq_of_ok h
        exact .uninitialized hboot hentry hmain hinit
      · rw [hinit] at h
        dsimp only at h
        rw [exec_bind, exec_argumentArray] at h
        rcases harray : Machine.newStringArray arguments initialized with ⟨cause | array, filled⟩
        · rw [harray] at h
          obtain ⟨rfl, rfl⟩ := Effect.eq_of_ok h
          exact .unfilled hboot hentry hmain hinit harray
        · rw [harray] at h
          obtain ⟨rfl, rfl⟩ := Effect.eq_of_ok h
          exact .ready hboot hentry hmain hinit harray
  · intro h
    -- backwards, each constructor holds the results of the parts up to the one that failed
    unfold preparation
    cases h with
    | unbooted hboot => rw [exec_bind, exec_boot, hboot]
    | unfound hboot hentry =>
      rw [exec_bind_of_ok ((exec_boot thread arguments).trans hboot), exec_bind,
        findsEntry_iff.mpr hentry]
    | undeclared hboot hentry hmain =>
      rw [exec_bind_of_ok ((exec_boot thread arguments).trans hboot),
        exec_bind_of_ok (findsEntry_iff.mpr hentry), exec_bind, exec_declared, hmain]
    | uninitialized hboot hentry hmain hinit =>
      rw [exec_bind_of_ok ((exec_boot thread arguments).trans hboot),
        exec_bind_of_ok (findsEntry_iff.mpr hentry), exec_bind, exec_declared, hmain]
      dsimp only
      rw [exec_bind, exec_initialized, hinit]
    | unfilled hboot hentry hmain hinit harray =>
      rw [exec_bind_of_ok ((exec_boot thread arguments).trans hboot),
        exec_bind_of_ok (findsEntry_iff.mpr hentry), exec_bind, exec_declared, hmain]
      dsimp only
      rw [exec_bind, exec_initialized, hinit]
      dsimp only
      rw [exec_bind, exec_argumentArray, harray]
    | ready hboot hentry hmain hinit harray =>
      rw [exec_bind_of_ok ((exec_boot thread arguments).trans hboot),
        exec_bind_of_ok (findsEntry_iff.mpr hentry), exec_bind, exec_declared, hmain]
      dsimp only
      rw [exec_bind, exec_initialized, hinit]
      dsimp only
      rw [exec_bind, exec_argumentArray, harray]
      rfl

-- ---------------------------------------------------------------------------
-- The steps of the stages
-- ---------------------------------------------------------------------------

theorem asked_entryType {part : Asked σ}
    (h : part ∈ asked engine fuel (entryType entry : Procedure σ Fatal ClassId) m) :
    ∃ access, part.step = .request (.access access) := by
  have hasks : Asks (fun step => ∃ access, step = .request (.access access))
      (entryType entry : Procedure σ Fatal ClassId) := by
    cases entry with
    | named name =>
      refine asks_bind (asks_orFatal ⟨⟨_, rfl⟩, fun _ => trivial⟩) fun found => ?_
      cases found with
      | none => exact asks_throw _
      | some type => exact asks_pure type
    | ofBytes bytes => exact asks_orFatal ⟨⟨_, rfl⟩, fun _ => trivial⟩
  obtain ⟨step, ⟨access, rfl⟩, hstep⟩ := hasks.of_mem_asked h
  exact ⟨access, hstep⟩

theorem asked_declared (kind : MethodKind) (type : ClassId) (key : MethodKey) :
    asked engine (fuel + 1) (declared kind type key : Procedure σ Fatal MethodRef) m =
      [⟨.request (.access .observe), m⟩] := by
  unfold declared
  rw [asked_bind, asked_observe, exec_observe]
  dsimp only
  cases m.table.method? kind type key <;> rfl

theorem asked_initialized (type : ClassId) :
    asked engine (fuel + 1) (initialized thread type : Procedure σ Fatal Unit) m =
      [⟨.request (.access .observe), m⟩, ⟨.request (.initClass thread type), m⟩] := by
  unfold initialized
  rw [asked_bind, asked_observe, exec_observe]
  dsimp only
  rw [asked_orFatal, asked_initClass]
  rfl

/-- The steps of the stages before the entry are the start, accesses, and the initialisation of a
class that is seen to have a static main method. None of them invokes a method. -/
theorem asked_preparation {part : Asked σ}
    (h : part ∈ asked engine (fuel + 1) (preparation thread entry arguments) m) :
    part = ⟨.request (.boot thread arguments), m⟩ ∨
    (∃ access, part.step = .request (.access access)) ∨
    ∃ type main, part.step = .request (.initClass thread type) ∧
      part.machine.table.method? .static type mainKey = some main := by
  unfold preparation at h
  rcases mem_asked_bind.mp h with h | ⟨_, booted, -, h⟩
  · rw [asked_boot] at h
    exact .inl (List.mem_singleton.mp h)
  rcases mem_asked_bind.mp h with h | ⟨type, found, -, h⟩
  · exact .inr (.inl (asked_entryType h))
  rcases mem_asked_bind.mp h with h | ⟨main, seen, hmain, h⟩
  · rw [asked_declared] at h
    obtain rfl := List.mem_singleton.mp h
    exact .inr (.inl ⟨_, rfl⟩)
  rw [exec_declared] at hmain
  -- without a `main` the preparation stops here, so nothing after this point is asked for
  split at hmain
  swap
  · exact nomatch Except.ok.inj (Prod.mk.inj hmain).1
  rename_i method hmethod
  obtain ⟨-, rfl⟩ := Prod.mk.inj hmain
  rcases mem_asked_bind.mp h with h | ⟨_, ready, -, h⟩
  · rw [asked_initialized] at h
    rcases List.mem_cons.mp h with rfl | h
    · exact .inr (.inl ⟨_, rfl⟩)
    · obtain rfl := List.mem_singleton.mp h
      exact .inr (.inr ⟨type, method, rfl, hmethod⟩)
  rcases mem_asked_bind.mp h with h | ⟨array, filled, -, h⟩
  · rw [asked_orFatal, newStringArray, asked] at h
    obtain rfl := List.mem_singleton.mp (asked_call _ ▸ h)
    exact .inr (.inl ⟨_, rfl⟩)
  · exact nomatch h

theorem exec_entering (call : EntryCall) :
    exec engine (fuel + 1) (entering thread call) m =
      match Machine.perform engine (fuel + 1)
        (.request (.invoke thread call.main [.object call.array])) m with
      | (.ok (.ok _), m') => (.ok (.ok ()), m')
      | (.ok (.error cause), m') =>
        (.ok (.error (.uncaughtException (m.className call.type) cause)), m')
      | (.error halt, m') => (.error halt, m') := by
  unfold entering
  rw [exec_bind, exec_observe]
  dsimp only
  rw [exec_bind, exec_orFatal, exec_invoke]
  rcases Machine.perform engine (fuel + 1)
    (.request (.invoke thread call.main [.object call.array])) m with ⟨halt | cause | value, m'⟩ <;>
    rfl

theorem asked_entering (call : EntryCall) :
    asked engine (fuel + 1) (entering thread call : Procedure σ Fatal Unit) m =
      [⟨.request (.access .observe), m⟩,
        ⟨.request (.invoke thread call.main [.object call.array]), m⟩] := by
  unfold entering
  rw [asked_bind, asked_observe, exec_observe]
  dsimp only
  rw [asked_bind, asked_orFatal, asked_invoke]
  rcases exec engine (fuel + 1) (orFatal (.uncaughtException (m.className call.type))
    (invoke thread call.main [.object call.array])) m with ⟨halt | cause | value, m'⟩ <;> rfl

end Procedure

namespace Prepares

open Procedure

variable {engine : Engine σ} {fuel : Nat} {thread : ThreadId} {entry : EntryClass}
  {arguments : List String} {m last last' : Machine σ} {call : EntryCall}
  {outcome outcome' : Except Fatal EntryCall}

/-- The stages go in one way only. -/
theorem unique (h : Prepares engine (fuel + 1) thread entry arguments m outcome last)
    (h' : Prepares engine (fuel + 1) thread entry arguments m outcome' last') :
    outcome = outcome' ∧ last = last' := by
  have hexec := (prepares_iff.mpr h).symm.trans (prepares_iff.mpr h')
  obtain ⟨houtcome, hlast⟩ := Prod.mk.inj hexec
  exact ⟨Except.ok.inj houtcome, hlast⟩

theorem stringArray (h : Prepares engine (fuel + 1) thread entry arguments m (.ok call) last) :
    last.StringArray call.array arguments := by
  cases h with
  | @ready _ _ array _ _ initialized _ _ _ _ _ harray =>
    have hmake : (newStringArray arguments).exec engine (fuel + 1) initialized =
        (.ok (.ok array), last) :=
      (exec_newStringArray arguments).trans (Machine.perform_access_eq_ok.mpr harray)
    exact (newStringArray_ok hmake).2

theorem plain_main (h : Prepares engine fuel thread entry arguments m (.ok call) last) :
    call.main.key.Plain := by
  cases h with
  | ready _ _ hmain _ _ =>
    have hkey := (ClassTable.eq_of_method? hmain).2
    exact hkey ▸ MethodKey.Plain.of_name (by decide)

end Prepares

end ClassHost
