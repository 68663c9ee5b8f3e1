import ClassHost.Proofs.Boot.Keeping
import ClassHost.Proofs.Machine.Invocation

/-!
# What overrides stand on

A start puts its overrides in place class by class, and may fail between one class and the next.
From then on every call looks the overrides up, whoever makes it. `overrides_stand` says that this
is safe at every mark of every run of a new machine, as long as neither its guest nor its engine
puts overrides in place by themselves: whatever is overridden is a method that is declared, and the
default charset is there.

* The promise comes from `Maintained.trace`, as overrides are only put in place when that is
  warranted, and what warrants it lasts (`maintained_overridesWarranted`).
* `Procedure.mem_asked_invocation_iff`: the engine gets the calls of methods that are not
  overridden, and only them. A call of an overridden one is a run of its override.
* `Procedure.newStreamEncoder_congr`: the factory of stream encoders looks at a stream and a lock,
  and at nothing else that it is given. With a charset in place it makes its encoder with that one
  (`Procedure.exec_newStreamEncoder`).
-/

namespace ClassHost

open Procedure

variable {σ α : Type} {engine : Engine σ} {fuel : Nat} {m m' : Machine σ} {thread : ThreadId}
  {method : MethodRef} {arguments arguments' : List Value} {entry : Override}

-- ---------------------------------------------------------------------------
-- The modules that are in place
-- ---------------------------------------------------------------------------

/-- An override comes from a module that is in place. -/
theorem Overrides.exists_of_find? {overrides : Overrides} {className : String} {key : MethodKey}
    (h : overrides.find? className key = some entry) :
    ∃ found ∈ overrides.modules, found.className = className ∧ (key, entry) ∈ found.methods := by
  unfold Overrides.find? at h
  split at h
  · rename_i found hfound
    refine ⟨found, List.mem_of_find?_eq_some hfound, ?_, ?_⟩
    · simpa using List.find?_some hfound
    · obtain ⟨before, after, hsplit, -⟩ := List.lookup_eq_some_iff.mp h
      rw [hsplit]
      simp
  · exact nomatch h

/-- A module that is in place was there before, or is the new one. -/
theorem Overrides.mem_install {overrides : Overrides} {new found : OverrideModule}
    (h : found ∈ (overrides.install new).modules) : found ∈ overrides.modules ∨ found = new := by
  rcases List.mem_append.mp h with h | h
  · exact .inl (List.mem_filter.mp h).1
  · exact .inr (List.mem_singleton.mp h)

namespace Machine

theorem OnlyObjects.overrides (h : OnlyObjects m m') : m'.overrides = m.overrides := by
  obtain ⟨heap, strings, rfl⟩ := h
  rfl

theorem overrides_access {access : Access σ} (h : Request.SparesOverrides (.access access))
    (m : Machine σ) : (access.apply m).2.overrides = m.overrides := by
  cases access with
  | installOverrides => exact h.elim
  | newInstance type => exact (onlyObjects_allocating _ m).overrides
  | newArray type length => exact (onlyObjects_allocating _ m).overrides
  | newStringArray texts => exact (newStringArray_apply texts m).overrides
  | intern text => exact (onlyObjects_intern text m).overrides
  | bindStrings type => exact (onlyObjects_bindStrings type m).overrides
  | setField object key value => exact (onlyObjects_writing _ m).overrides
  | setElement object index value => exact (onlyObjects_writing _ m).overrides
  | raise error => exact (onlyObjects_raise error m).overrides
  | attachPeer thread peer =>
    change (attachPeer thread peer m).2.overrides = m.overrides
    rw [attachPeer_apply]
    split
    · rfl
    · split <;> rfl
  | _ => rfl

/-- All that is in place was warranted, and still is. -/
def OverridesWarranted (m : Machine σ) : Prop :=
  ∀ entry ∈ m.overrides.modules, (Upkeep.install entry).Warranted m

/-- What is in place stays warranted where nothing is added. -/
theorem OverridesWarranted.keep (h : m.OverridesWarranted) (hoverrides : m'.overrides = m.overrides)
    (htable : m.table.Keeps m'.table) (hcharset : m.charset.isSome → m'.charset.isSome) :
    m'.OverridesWarranted := by
  intro entry hentry
  rw [hoverrides] at hentry
  obtain ⟨hdeclared, hset⟩ := h entry hentry
  exact ⟨hdeclared.keep htable, hcharset hset⟩

theorem overridesWarranted_upkeep {upkeep : Upkeep} (hupkeep : upkeep.Warranted m)
    (h : m.OverridesWarranted) : (upkeep.apply m).2.OverridesWarranted := by
  -- no upkeep moves the table, so of the entries only the newly installed one is in question
  have htable : m.table.Keeps (upkeep.apply m).2.table := by
    rw [(upkeep.keeps m).1]
    exact .refl m.table
  have hcharset := isSome_charset_upkeep upkeep (m := m)
  cases upkeep with
  | note event => exact h.keep rfl htable hcharset
  | setBoot state => exact h.keep rfl htable hcharset
  | capture known =>
    refine h.keep ?_ htable hcharset
    rw [Upkeep.apply_capture]
    split <;> rfl
  | setCharset charset =>
    refine h.keep ?_ htable hcharset
    rw [Upkeep.apply_setCharset]
    split <;> rfl
  | install new =>
    intro entry hentry
    rcases Overrides.mem_install hentry with hentry | rfl
    · exact h entry hentry
    · exact hupkeep

/-- **Overrides stay warranted.** -/
theorem maintained_overridesWarranted :
    Maintained (σ := σ) Request.SparesOverrides OverridesWarranted where
  own _ h := h
  access {m} access hallowed h :=
    h.keep (overrides_access hallowed m) (access.touches m).table.keeps fun hset => by
      rwa [charset_access]
  upkeep _ hupkeep h := overridesWarranted_upkeep hupkeep h
  threads _ _ h := h

end Machine

-- ---------------------------------------------------------------------------
-- Calls
-- ---------------------------------------------------------------------------

namespace Procedure

/-- **Who gets a call.** A call makes the engine receive exactly that call if the method is not
overridden, and no call otherwise. -/
theorem mem_asked_invocation_iff {call : Call} :
    (∃ middle, ⟨.callEngine call, middle⟩ ∈
      asked engine (fuel + 1) (invocation thread method arguments) m) ↔
    m.overrides.find? (m.className method.declaring) method.key = none ∧
      call = ⟨thread, method, arguments⟩ := by
  cases hfind : m.overrides.find? (m.className method.declaring) method.key with
  | some entry =>
    refine ⟨fun ⟨middle, hmem⟩ => ?_, fun ⟨hnone, _⟩ => nomatch hnone⟩
    -- what an override asks for is contained, and an engine call is not
    rw [asked_invocation_of_find? hfind] at hmem
    rcases List.mem_cons.mp hmem with hobserve | hmem
    · exact nomatch congrArg Asked.step hobserve
    · obtain ⟨step, hcontained, rfl⟩ := (asks_runOverride _ _ _ entry).of_mem_asked hmem
      exact hcontained.elim
  | none =>
    rw [asked_invocation_of_none hfind]
    constructor
    · rintro ⟨middle, hmem⟩
      simp only [List.mem_cons, Asked.mk.injEq, reduceCtorEq, false_and, false_or,
        Step.callEngine.injEq] at hmem
      rcases hmem with ⟨hcall, -⟩ | hmem
      · exact ⟨rfl, hcall⟩
      · -- nothing but a note follows the call
        split at hmem
        · exact nomatch congrArg Asked.step (List.mem_singleton.mp hmem)
        · exact nomatch hmem
    · rintro ⟨-, rfl⟩
      exact ⟨_, List.mem_cons_of_mem _ (List.mem_cons_of_mem _ List.mem_cons_self)⟩

/-- The factory of stream encoders looks at a stream and a lock, and at no other argument. -/
theorem newStreamEncoder_congr (hout : arguments.getD 0 .null = arguments'.getD 0 .null)
    (hlock : arguments.getD 1 .null = arguments'.getD 1 .null) :
    (newStreamEncoder thread method arguments : Procedure σ Throwable (Option Value)) =
      newStreamEncoder thread method arguments' := by
  unfold newStreamEncoder
  rw [hout, hlock]

/-- Makes a stream encoder of the called method's class, for a stream that is there and with a
charset that is. -/
def encoderWith (thread : ThreadId) (method : MethodRef) (out lock : Value) (charset : ObjectId) :
    Procedure σ Throwable (Option Value) := do
  let m ← observe
  let some constructor := m.table.method? .nonStatic method.declaring encoderConstructor
    | throw (.internal (.noCharsetConstructor (m.className method.declaring)))
  initClass thread method.declaring
  let encoder ← newInstance method.declaring
  let _ ← invoke thread constructor [.object encoder, out, lock, .object charset]
  return some (.object encoder)

/-- With a charset in place, the factory makes its encoder with that one. -/
theorem exec_newStreamEncoder {charset : ObjectId} (hout : arguments.getD 0 .null ≠ .null)
    (hcharset : m.charset = some charset) :
    exec engine (fuel + 1) (newStreamEncoder thread method arguments) m =
      exec engine (fuel + 1) (encoderWith thread method (arguments.getD 0 .null)
        (arguments.getD 1 .null) charset) m := by
  unfold newStreamEncoder encoderWith
  dsimp only
  rewrite [if_neg hout, exec_bind_of_ok exec_observe, exec_bind_of_ok exec_observe, hcharset]
  rfl

end Procedure

-- ---------------------------------------------------------------------------
-- The promise
-- ---------------------------------------------------------------------------

/-- What holds of the overrides of a machine. -/
structure OverridesStand (m : Machine σ) : Prop where
  /-- An override stands in for a method that a class of the table declares. -/
  declares : ∀ {className : String} {key : MethodKey} {entry : Override},
    m.overrides.find? className key = some entry → ∃ type method,
      m.table.find? className = some type ∧ m.table.method? .any type key = some method
  charset : ∀ {className : String} {key : MethodKey} {entry : Override},
    m.overrides.find? className key = some entry → m.charset.isSome
  /-- A call reaches the engine exactly if the method is not overridden, and as it is. -/
  calls_iff : ∀ (engine : Engine σ) (fuel : Nat) (thread : ThreadId) (method : MethodRef)
    (arguments : List Value) (call : Call),
    (∃ middle, ⟨.callEngine call, middle⟩ ∈
      Machine.asked engine (fuel + 1) (.request (.invoke thread method arguments)) m) ↔
    m.overrides.find? (m.className method.declaring) method.key = none ∧
      call = ⟨thread, method, arguments⟩
  /-- For a stream that is there, the factory of stream encoders goes on with the default charset. -/
  encodes : ∀ (engine : Engine σ) (fuel : Nat) (thread : ThreadId) (method : MethodRef)
    (arguments : List Value),
    m.overrides.find? (m.className method.declaring) method.key = some .newStreamEncoder →
    arguments.getD 0 .null ≠ .null →
    ∃ charset, m.charset = some charset ∧
      Machine.perform engine (fuel + 2) (.request (.invoke thread method arguments)) m =
        (encoderWith thread method (arguments.getD 0 .null) (arguments.getD 1 .null) charset).exec
          engine (fuel + 1) m
  /-- What it returns, what it leaves and all that happens on the way depend on the stream and the
  lock only, not on the charset that was asked for. -/
  ignores : ∀ (engine : Engine σ) (fuel : Nat) (thread : ThreadId) (method : MethodRef)
    (arguments arguments' : List Value),
    m.overrides.find? (m.className method.declaring) method.key = some .newStreamEncoder →
    arguments.getD 0 .null = arguments'.getD 0 .null →
    arguments.getD 1 .null = arguments'.getD 1 .null →
    Machine.perform engine fuel (.request (.invoke thread method arguments)) m =
        Machine.perform engine fuel (.request (.invoke thread method arguments')) m ∧
      Machine.traceAll engine fuel
          (Machine.asked engine fuel (.request (.invoke thread method arguments)) m) =
        Machine.traceAll engine fuel
          (Machine.asked engine fuel (.request (.invoke thread method arguments')) m)

namespace Machine

theorem perform_invoke (engine : Engine σ) (fuel : Nat) (thread : ThreadId) (method : MethodRef)
    (arguments : List Value) (m : Machine σ) :
    perform engine (fuel + 1) (.request (.invoke thread method arguments)) m =
      (invocation thread method arguments).exec engine fuel m := rfl

theorem asked_invoke (engine : Engine σ) (fuel : Nat) (thread : ThreadId) (method : MethodRef)
    (arguments : List Value) (m : Machine σ) :
    asked engine fuel (.request (.invoke thread method arguments)) m =
      Procedure.asked engine fuel (invocation thread method arguments) m := rfl

/-- With fuel for the first step, an overridden call is a run of its override. -/
theorem perform_invoke_of_find?
    (h : m.overrides.find? (m.className method.declaring) method.key = some entry) :
    perform engine (fuel + 2) (.request (.invoke thread method arguments)) m =
      (runOverride thread method arguments entry).exec engine (fuel + 1) m := by
  rw [perform_invoke, exec_invocation_of_find? h]

theorem OverridesWarranted.stand (h : m.OverridesWarranted) : OverridesStand m where
  declares hfind := by
    obtain ⟨found, hmem, rfl, hmethod⟩ := Overrides.exists_of_find? hfind
    obtain ⟨type, htype, hmethods⟩ := (h found hmem).1
    obtain ⟨method, hdeclared⟩ := hmethods _ hmethod
    exact ⟨type, method, htype, hdeclared⟩
  charset hfind := by
    obtain ⟨found, hmem, -, -⟩ := Overrides.exists_of_find? hfind
    exact (h found hmem).2
  calls_iff engine fuel thread method arguments call := by
    rw [asked_invoke]
    exact mem_asked_invocation_iff
  encodes engine fuel thread method arguments hfind hout := by
    obtain ⟨found, hmem, -, -⟩ := Overrides.exists_of_find? hfind
    obtain ⟨charset, hcharset⟩ := Option.isSome_iff_exists.mp (h found hmem).2
    refine ⟨charset, hcharset, ?_⟩
    rw [perform_invoke_of_find? hfind, runOverride, exec_newStreamEncoder hout hcharset]
  ignores engine fuel thread method arguments arguments' hfind hout hlock := by
    -- short of fuel, a call does not get as far as its arguments
    match fuel with
    | 0 => exact ⟨rfl, rfl⟩
    | 1 =>
      refine ⟨rfl, ?_⟩
      rw [asked_invoke, asked_invoke, asked_invocation_of_find? hfind,
        asked_invocation_of_find? hfind, runOverride, runOverride,
        newStreamEncoder_congr hout hlock]
    | fuel + 2 =>
      rw [perform_invoke_of_find? hfind, perform_invoke_of_find? hfind, asked_invoke, asked_invoke,
        asked_invocation_of_find? hfind, asked_invocation_of_find? hfind, runOverride, runOverride,
        newStreamEncoder_congr hout hlock]
      exact ⟨rfl, rfl⟩

theorem overridesWarranted_new (classPath : Finder) (delegateClass : Option String) (memory : σ) :
    (Machine.new classPath delegateClass memory).OverridesWarranted :=
  List.forall_mem_nil _

end Machine

/-- **Overrides stand on what they replace.** Let a guest do what it likes on a new machine, with
whatever class path and engine, but for putting overrides in place without a start. At every mark of
the run, also inside a start and after one that failed, and when the run is over, the overrides that
are in place replace methods that are there, with a charset to go with them; calls reach the engine
exactly if they are not overridden; and the factory of stream encoders does not look at the charset
that it is asked for. -/
theorem overrides_stand (engine : Engine σ)
    (hengine : ∀ call, (engine.respond call).Only Request.SparesOverrides) (fuel : Nat)
    {guest : Guest σ α} (hguest : guest.Only Request.SparesOverrides) (classPath : Finder)
    (delegateClass : Option String) (memory : σ) :
    (∀ mark ∈ Machine.trace engine fuel guest (.new classPath delegateClass memory),
      OverridesStand mark.machine) ∧
    OverridesStand (Machine.run engine fuel guest (.new classPath delegateClass memory)).2 := by
  obtain ⟨hmarks, hlast⟩ := Machine.maintained_overridesWarranted.trace hengine hguest
    (Machine.overridesWarranted_new classPath delegateClass memory)
  exact ⟨fun mark hmark => (hmarks mark hmark).stand, hlast.stand⟩

/-- A class path whose `System` class has nothing to override. -/
def halfFinder : Finder := fun name =>
  some ⟨.memory name, libraryFile name
    (if name = CoreName.system then [systemSetup] else (libraryMethods.lookup name).getD [])⟩

/-- Starts the machine on a new thread. -/
def startingGuest : Guest Unit (Except Fatal Unit) :=
  .ask (.access (.newThread "main")) fun thread => .ask (.boot thread []) fun result => .done result

/-- A start there fails between the first module and the second. -/
def halfRun : Except Halt (Except Fatal Unit) × Machine Unit :=
  Machine.run inertEngine 6 startingGuest (.new halfFinder none ())

/-- The module that was put in place before the failure stands. -/
theorem halfRun_stands :
    (∀ call, (inertEngine.respond call).Only Request.SparesOverrides) ∧
    startingGuest.Only Request.SparesOverrides ∧
    halfRun.2.boot = .failed ∧ halfRun.2.overrides.modules = [.streamEncoder] ∧
    (∀ mark ∈ Machine.trace inertEngine 6 startingGuest (.new halfFinder none ()),
      OverridesStand mark.machine) ∧
    OverridesStand halfRun.2 := by
  have hengine : ∀ call, (inertEngine.respond call).Only Request.SparesOverrides := fun _ => trivial
  have hguest : startingGuest.Only Request.SparesOverrides :=
    ⟨trivial, fun _ => ⟨trivial, fun _ => trivial⟩⟩
  have hrun : (halfRun.2.boot, halfRun.2.overrides.modules) = (.failed, [.streamEncoder]) := by
    decide +kernel
  obtain ⟨hboot, hmodules⟩ := Prod.mk.inj hrun
  obtain ⟨hmarks, hlast⟩ := overrides_stand inertEngine hengine 6 hguest halfFinder none ()
  exact ⟨hengine, hguest, hboot, hmodules, hmarks, hlast⟩

end ClassHost
