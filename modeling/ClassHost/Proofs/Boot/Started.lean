import ClassHost.Proofs.Boot.Parts

/-!
# What a start establishes

The parts of a start put together. Every part establishes facts that later parts do not touch: what
later parts touch is known, and whatever runs inside calls touches nothing. So what is true when a
part returns is true at the end.

The main result `started_of_boot` is about a machine that has loaded nothing, any class path and any
restrained engine. If a start returns there without a failure, the machine is `Started`.
-/

namespace ClassHost

open Procedure

/-- What the first nine steps of a start find and make. -/
structure Foundation where
  known : WellKnown
  main : MainThread
  /-- The canonical string of `main`. -/
  name : ObjectId
  newSystemGroup : MethodRef
  newMainGroup : MethodRef
  newThread : MethodRef

/-- The constructors that these steps call. -/
def Foundation.calls (found : Foundation) (thread : ThreadId) : List Call := [
  ⟨thread, found.newSystemGroup, [.object found.main.systemGroup]⟩,
  ⟨thread, found.newMainGroup,
    [.object found.main.mainGroup, .null, .object found.main.systemGroup, .object found.name]⟩,
  ⟨thread, found.newThread,
    [.object found.main.peer, .object found.main.mainGroup, .object found.name]⟩]

variable {σ : Type} {m m' : Machine σ} {calls : List Call} {thread : ThreadId} {handle : Int64}

namespace Machine

/-- The first nine steps of a start have been taken, on a thread with a handle. -/
structure Prepared (m : Machine σ) (thread : ThreadId) (handle : Int64) (found : Foundation) :
    Prop where
  captured : m.Captured found.known
  founded : m.Founded thread handle found.main
  needs : ∀ name ∈ [CoreName.inputStream, CoreName.printStream, CoreName.securityManager],
    m.Initialized name
  systemRole : m.HasRole CoreName.system .coreLibrary
  name : m.Canonical found.name mainName
  newSystemGroup : m.table.method? .any found.main.groupType systemGroupConstructor =
    some found.newSystemGroup
  newMainGroup : m.table.method? .any found.main.groupType groupConstructor =
    some found.newMainGroup
  newThread : m.table.method? .any found.main.threadType threadConstructor = some found.newThread

/-- The library is ready, with a default charset, and its `System` class has been set up by a
method. -/
structure Furnished (m : Machine σ) (utf8 : ObjectId) (setup : MethodRef) : Prop where
  initialized : ∀ name ∈ [CoreName.charset, CoreName.utf8, CoreName.system,
    CoreName.securityDebug], m.Initialized name
  kept : m.charset = some utf8
  isUtf8 : m.IsInstance utf8 CoreName.utf8
  default : m.HasStatic CoreName.charset defaultCharsetField (.object utf8)
  setup : ∃ system, m.table.find? CoreName.system = some system ∧
    m.table.method? .static system systemSetup = some setup

end Machine

/-- What is touched in the first nine steps. -/
def Aspect.ofFoundation : List Aspect :=
  ofCapture ++ [.role CoreName.system, .state CoreName.system, .state CoreName.securityDebug]

/-- What is touched when the library is finished. -/
def Aspect.ofLibrary : List Aspect :=
  [.statics CoreName.charset, .charset, .state CoreName.system, .state CoreName.securityDebug]

/-- What is touched after that. -/
def Aspect.ofEnd : List Aspect := [.delegate, .boot]

theorem Evolves.prepared {found : Foundation}
    (h : Evolves (Aspect.ofLibrary ++ Aspect.ofEnd) calls m m')
    (hfact : m.Prepared thread handle found) : m'.Prepared thread handle found where
  captured := h.captured (by decide) (by decide) hfact.captured
  founded := by
    refine h.founded (by decide) (by decide) ?_ hfact.founded
    simp [Aspect.ofLibrary, Aspect.ofEnd]
  needs name hname := by
    refine h.initialized ?_ (hfact.needs name hname)
    revert name
    decide
  systemRole := h.hasRole (by decide) hfact.systemRole
  name := h.canonical hfact.name
  newSystemGroup := h.method? hfact.newSystemGroup
  newMainGroup := h.method? hfact.newMainGroup
  newThread := h.method? hfact.newThread

theorem Evolves.furnished {utf8 : ObjectId} {setup : MethodRef}
    (h : Evolves Aspect.ofEnd calls m m') (hfact : m.Furnished utf8 setup) :
    m'.Furnished utf8 setup where
  initialized name hname := h.initialized (by simp [Aspect.ofEnd]) (hfact.initialized name hname)
  kept := by
    rw [h.touches.charset (by decide), hfact.kept]
  isUtf8 := h.isInstance hfact.isUtf8
  default := h.hasStatic (by decide) hfact.default
  setup := by
    obtain ⟨system, hfind, hmethod⟩ := hfact.setup
    exact ⟨system, h.touches.table.find? hfind, h.method? hmethod⟩

section Steps

variable {engine : Engine σ} {fuel : Nat}
  (hengine : ∀ call, (engine.respond call).Only Request.Restrained)
  (hboot : m.boot ≠ .notBooted)

include hengine hboot

theorem layFoundation_ok {block : ThreadBlock} {claimed : Claimed} (hempty : m.table = .empty)
    (hblock : m.thread? thread = some block)
    (h : (layFoundation thread).exec engine fuel m = (.ok (.ok claimed), m')) :
    ∃ found, Evolves Aspect.ofFoundation (found.calls thread) m m' ∧
      m'.Prepared thread block.handle found ∧
      m'.table.find? CoreName.system = some claimed.system ∧
      m'.table.find? CoreName.securityDebug = some claimed.securityDebug := by
  obtain ⟨_, m₁, h₁, h⟩ := exec_bind_ok h
  obtain ⟨hcaptures, known, hcaptured⟩ := captureWellKnown_ok hengine hboot hempty h₁
  -- the capture started on an empty table and leaves every other class untouched
  have hidle : ∀ name, m₁.Idle name := fun name =>
    hcaptures.idle (by simp [Aspect.ofCapture]) (Machine.idle_of_empty hempty name)
  have huntagged : m₁.Untagged CoreName.system :=
    hcaptures.untagged (by decide) (Machine.untagged_of_empty hempty _)
  obtain ⟨block', hblock', hframe⟩ := hcaptures.touches.threads.get? hblock
  obtain ⟨main, m₂, h₂, h⟩ := exec_bind_ok h
  obtain ⟨newSystemGroup, hnewSystemGroup, hfounds, hfounded⟩ :=
    newMainThread_ok hengine (hcaptures.started hboot) hblock' (hidle _) (hidle _) h₂
  have hbefore₂ := hcaptures.trans hfounds
  obtain ⟨system, m₃, h₃, h⟩ := exec_bind_ok h
  obtain ⟨hclaims, hsystem, hrole, hneeds⟩ := claimSystem_ok hengine (hbefore₂.started hboot)
    (fun name _ => hfounds.idle List.not_mem_nil (hidle name))
    (hfounds.untagged List.not_mem_nil huntagged) h₃
  have hbefore₃ := hbefore₂.trans hclaims
  obtain ⟨_, m₄, h₄, h⟩ := exec_bind_ok h
  obtain ⟨newMainGroup, name, hnewMainGroup, hname, hgroups⟩ :=
    callDeclared_intern_ok hengine (hbefore₃.started hboot) (.of_name (by decide)) (by decide) h₄
  obtain ⟨debug, m₅, h₅, h⟩ := exec_bind_ok h
  obtain ⟨hloads, hdebug⟩ := loadRequired_ok h₅
  obtain ⟨_, m₆, h₆, h⟩ := exec_bind_ok h
  obtain ⟨hmarks, -⟩ := setState_ok hdebug h₆
  have hbefore₆ := hbefore₃.trans (hgroups.trans (hloads.trans hmarks))
  obtain ⟨_, m₇, h₇, h⟩ := exec_bind_ok h
  obtain ⟨newThread, name', hnewThread, hname', hthreads⟩ :=
    callDeclared_intern_ok hengine (hbefore₆.started hboot) (.of_name (by decide)) (by decide) h₇
  obtain ⟨rfl, rfl⟩ := pure_ok h
  -- what is left to do after each part
  have hafter₅ := hmarks.trans hthreads
  have hafter₄ := hloads.trans hafter₅
  have hafter₃ := hgroups.trans hafter₄
  have hafter₂ := hclaims.trans hafter₃
  have hafter₁ := hfounds.trans hafter₂
  -- the main thread and its constructor are given one name: both strings are the canonical one
  obtain rfl : name = name' := Option.some.inj ((hafter₄.canonical hname).symm.trans hname')
  refine ⟨⟨known, main, name, newSystemGroup, newMainGroup, newThread⟩, hcaptures.trans hafter₁, {
    captured := hafter₁.captured (by decide) (by decide) hcaptured
    founded := hafter₂.founded (by decide) (by decide) (by simp) (hframe.handle ▸ hfounded)
    needs := fun name hname => hafter₃.initialized ?_ (hneeds name hname)
    systemRole := hafter₃.hasRole (by decide) hrole
    name := hname'
    newSystemGroup := hafter₂.method? hnewSystemGroup
    newMainGroup := hafter₃.method? hnewMainGroup
    newThread := hthreads.method? hnewThread }, hafter₃.touches.table.find? hsystem,
    hafter₅.touches.table.find? hdebug⟩
  revert name
  decide

theorem finishLibrary_ok {claimed : Claimed} (hcharset : m.Idle CoreName.charset)
    (hutf8 : m.Idle CoreName.utf8) (hsystem : m.table.find? CoreName.system = some claimed.system)
    (hdebug : m.table.find? CoreName.securityDebug = some claimed.securityDebug)
    (h : (finishLibrary thread claimed).exec engine fuel m = (.ok (.ok ()), m')) :
    ∃ utf8 setup, Evolves Aspect.ofLibrary [⟨thread, setup, []⟩] m m' ∧
      m'.Furnished utf8 setup := by
  obtain ⟨_, m₁, h₁, h⟩ := exec_bind_ok h
  obtain ⟨utf8, hoverrides, hcharsetInit, hutf8Init, hutf8, hkept, hdefault⟩ :=
    applyOverrides_ok hengine hboot hcharset hutf8 h₁
  obtain ⟨_, m₂, h₂, h⟩ := exec_bind_ok h
  obtain ⟨setup, hsetup, hsets⟩ :=
    callDeclared_pure_ok hengine (hoverrides.started hboot) (.of_name (by decide)) (by decide) h₂
  have hbefore₂ := hoverrides.trans hsets
  -- the two classes whose initialisers never run are marked by hand
  obtain ⟨_, m₃, h₃, h⟩ := exec_bind_ok h
  obtain ⟨hsystems, hsystemInit⟩ := setState_ok (hbefore₂.touches.table.find? hsystem) h₃
  have hbefore₃ := hbefore₂.trans hsystems
  obtain ⟨hdebugs, hdebugInit⟩ := setState_ok (hbefore₃.touches.table.find? hdebug) h
  -- what is left to do after each part
  have hafter₂ := hsystems.trans hdebugs
  have hafter₁ := hsets.trans hafter₂
  refine ⟨utf8, setup, hoverrides.trans hafter₁, {
    initialized := ?_
    kept := by rw [hafter₁.touches.charset (by decide), hkept]
    isUtf8 := hafter₁.isInstance hutf8
    default := hafter₁.hasStatic (by decide) hdefault
    setup := ⟨claimed.system, (hbefore₃.trans hdebugs).touches.table.find? hsystem,
      hafter₁.method? hsetup⟩ }⟩
  intro name hname
  simp only [List.mem_cons, List.not_mem_nil, or_false] at hname
  rcases hname with rfl | rfl | rfl | rfl
  · exact hafter₁.initialized (by decide) hcharsetInit
  · exact hafter₁.initialized (by decide) hutf8Init
  · exact hdebugs.initialized (by decide) (hsystemInit rfl)
  · exact hdebugInit rfl

theorem bootSequence_ok {arguments : List String} {block : ThreadBlock}
    (hloader : m.loader = .empty) (hblock : m.thread? thread = some block)
    (h : (bootSequence thread arguments).exec engine fuel m = (.ok (.ok ()), m')) :
    ∃ found utf8 setup last, Evolves (Aspect.ofFoundation ++ (Aspect.ofLibrary ++ [.delegate]))
        (found.calls thread ++ ⟨thread, setup, []⟩ :: last) m m' ∧
      m'.Prepared thread block.handle found ∧ m'.Furnished utf8 setup ∧
      m'.Delegated engine thread arguments last := by
  have hempty : m.table = .empty := by
    rw [Machine.table, hloader]
    rfl
  obtain ⟨claimed, m₁, h₁, h⟩ := exec_bind_ok h
  obtain ⟨found, hfounds, hprepared, hsystem, hdebug⟩ :=
    layFoundation_ok hengine hboot hempty hblock h₁
  -- the foundation moves the states of `System` and of the debug class by hand, of no other class
  have hidle : ∀ name ≠ CoreName.system, name ≠ CoreName.securityDebug → m₁.Idle name := by
    intro name hname hname'
    refine hfounds.idle ?_ (Machine.idle_of_empty hempty name)
    simp [Aspect.ofFoundation, Aspect.ofCapture, hname, hname']
  obtain ⟨_, m₂, h₂, h⟩ := exec_bind_ok h
  obtain ⟨utf8, setup, hfurnishes, hfurnished⟩ := finishLibrary_ok hengine (hfounds.started hboot)
    (hidle _ (by decide) (by decide)) (hidle _ (by decide) (by decide)) hsystem hdebug h₂
  have hbefore₂ := hfounds.trans hfurnishes
  have hdelegate : m₂.loader.delegate = none := by
    rw [hbefore₂.touches.delegate (by decide), hloader]
    rfl
  obtain ⟨last, hdelegates, hdelegated⟩ :=
    installDelegate_ok hengine (hbefore₂.started hboot) hdelegate h
  have hend : Evolves Aspect.ofEnd last m₂ m' := hdelegates.mono (by decide)
  exact ⟨found, utf8, setup, last, hfounds.trans (hfurnishes.trans hdelegates),
    (hfurnishes.trans hend).prepared hprepared, hend.furnished hfurnished, hdelegated⟩

end Steps

-- ---------------------------------------------------------------------------
-- A whole start
-- ---------------------------------------------------------------------------

theorem Machine.Delegated.setBoot {engine : Engine σ} {arguments : List String}
    (h : m.Delegated engine thread arguments calls) (state : BootState) :
    Machine.Delegated engine thread arguments { m with boot := state } calls := by
  cases h with
  | absent hclass hdelegate => exact .absent hclass hdelegate
  | present hclass hfind hconstructor hinstance harguments hrun hafter =>
    exact .present hclass hfind hconstructor hinstance harguments hrun (by rw [hafter])

/-- **What a start establishes.** A start that returns without a failure, on a machine that has
loaded nothing, with any class path, arguments and restrained engine, ends with the machine prepared
and the library furnished. Besides initialisers it has made exactly the calls listed, on these
objects. -/
theorem started_of_boot {engine : Engine σ} {fuel : Nat} {arguments : List String}
    {block : ThreadBlock} (hengine : ∀ call, (engine.respond call).Only Request.Restrained)
    (hloader : m.loader = .empty) (hstate : m.boot = .notBooted) (hjournal : m.journal = #[])
    (hblock : m.thread? thread = some block)
    (h : Machine.perform engine fuel (.request (.boot thread arguments)) m = (.ok (.ok ()), m')) :
    m'.boot = .booted ∧ ∃ found utf8 setup last,
      m'.Prepared thread block.handle found ∧ m'.Furnished utf8 setup ∧
      m'.Delegated engine thread arguments last ∧
      ownCalls 0 m'.events = found.calls thread ++ ⟨thread, setup, []⟩ :: last := by
  cases fuel with
  | zero => exact nomatch (Prod.mk.inj h).1
  | succ fuel =>
    replace h : (booting thread arguments).exec engine fuel m = (.ok (.ok ()), m') := h
    replace h := observe_bind_ok h
    rw [hstate] at h
    obtain ⟨_, m₁, hbegin, h⟩ := exec_bind_ok h
    obtain rfl := setBoot_ok hbegin
    have hboot : ({ m with boot := .booting } : Machine σ).boot ≠ .notBooted := by simp
    obtain ⟨result, m₂, hrun, h⟩ := exec_bind_ok h
    replace hrun := exec_outcome_ok hrun
    cases result with
    | error fatal =>
      obtain ⟨_, _, -, hthrow⟩ := exec_bind_ok h
      exact nomatch Except.ok.inj (Prod.mk.inj hthrow).1
    | ok _ =>
      obtain ⟨found, utf8, setup, last, hevolves, hprepared, hfurnished, hdelegated⟩ :=
        bootSequence_ok hengine hboot hloader hblock hrun
      obtain rfl := setBoot_ok h
      have hend : Evolves [.boot] [] m₂ { m₂ with boot := .booted } :=
        .of_touches { Touches.refl m₂ with boot := by simp, started := by simp } (by simp)
      refine ⟨rfl, found, utf8, setup, last, (hend.mono (by decide)).prepared hprepared,
        (hend.mono (by decide)).furnished hfurnished, hdelegated.setBoot .booted, ?_⟩
      -- the journal was empty, so what the start has written is all of it
      obtain ⟨events, hevents, hclosed⟩ := hevolves.journal
      have hevents' : m₂.events = events := by
        rw [hevents, Machine.events, hjournal]
        rfl
      exact (congrArg (ownCalls 0) hevents').trans hclosed.ownCalls_eq

-- ---------------------------------------------------------------------------
-- A library that starts
-- ---------------------------------------------------------------------------

/-- Two bytes, most significant first. -/
def libraryShort (n : Nat) : Bytes := [UInt8.ofNat (n / 256), UInt8.ofNat n]

/-- A text in a constant pool. -/
def libraryText (text : String) : Bytes :=
  1 :: libraryShort text.length ++ text.toList.map fun c => UInt8.ofNat c.toNat

/-- The file of a class whose methods are all static. -/
def libraryFile (name : String) (methods : List MethodKey) : Bytes :=
  [0xCA, 0xFE, 0xBA, 0xBE, 0, 0, 0, 52] ++ libraryShort (3 + 2 * methods.length) ++ [7, 0, 2] ++
    libraryText name ++
    methods.flatMap (fun key => libraryText key.name ++ libraryText key.type.text) ++
    [0, 0, 0, 1, 0, 0, 0, 0, 0, 0] ++ libraryShort methods.length ++
    methods.zipIdx.flatMap (fun (_, index) =>
      [0, 8] ++ libraryShort (3 + 2 * index) ++ libraryShort (4 + 2 * index) ++ [0, 0]) ++
    [0, 0]

/-- The file of a class that declares nothing, with its super class. -/
def heirFile (name superName : String) : Bytes :=
  [0xCA, 0xFE, 0xBA, 0xBE, 0, 0, 0, 52, 0, 5, 7, 0, 2] ++ libraryText name ++ [7, 0, 4] ++
    libraryText superName ++ [0, 0, 0, 1, 0, 3, 0, 0, 0, 0, 0, 0, 0, 0]

/-- The methods that a start calls or overrides, by class. -/
def libraryMethods : List (String × List MethodKey) := [
  (CoreName.threadGroup, [systemGroupConstructor, groupConstructor]),
  (CoreName.thread, [threadConstructor]),
  (CoreName.system, systemSetup :: OverrideModule.system.methods.map Prod.fst),
  (OverrideModule.streamEncoder.className, OverrideModule.streamEncoder.methods.map Prod.fst),
  (Machine.defaultDelegateClass, [delegateConstructor])]

/-- A class path that knows every name. -/
def libraryFinder : Finder := fun name =>
  some ⟨.memory name, libraryFile name ((libraryMethods.lookup name).getD [])⟩

/-- An engine whose methods do nothing. -/
def inertEngine : Engine Unit where
  respond _ := .done (.ok none)

/-- A new machine with one thread. -/
def libraryMachine : Machine Unit :=
  { Machine.new libraryFinder (some Machine.defaultDelegateClass) () with
    threads := #[⟨"main", 1, none⟩] }

/-- Its start. -/
def libraryRun : Except Halt (Except Fatal Unit) × Machine Unit :=
  Machine.perform inertEngine 6 (.request (.boot ⟨0⟩ ["argument"])) libraryMachine

/-- Whether a run returned without a failure. -/
def returns {σ : Type} : Except Halt (Except Fatal Unit) × Machine σ → Bool
  | (.ok (.ok ()), _) => true
  | _ => false

theorem eq_of_returns {run : Except Halt (Except Fatal Unit) × Machine σ}
    (h : returns run = true) : run = (.ok (.ok ()), run.2) := by
  unfold returns at h
  split at h
  · rfl
  · exact nomatch h

theorem libraryRun_started :
    returns libraryRun = true ∧ libraryRun.2.boot = .booted ∧ ∃ found utf8 setup last,
      libraryRun.2.Prepared ⟨0⟩ 1 found ∧ libraryRun.2.Furnished utf8 setup ∧
      libraryRun.2.Delegated inertEngine ⟨0⟩ ["argument"] last ∧
      ownCalls 0 libraryRun.2.events = found.calls ⟨0⟩ ++ ⟨⟨0⟩, setup, []⟩ :: last := by
  have hreturns : returns libraryRun = true := by decide +kernel
  have hengine : ∀ call, (inertEngine.respond call).Only Request.Restrained := fun _ => trivial
  have hthread : libraryMachine.thread? ⟨0⟩ = some ⟨"main", 1, none⟩ := rfl
  exact ⟨hreturns, started_of_boot hengine rfl rfl rfl hthread (eq_of_returns hreturns)⟩

end ClassHost
