import ClassHost.Proofs.Boot.Steps

/-!
# The parts of a start

What each part of a start has achieved if it returned. The facts a part establishes are put together
in one structure where they belong together, and are said to last as long as what they are about is
not touched.

* `Captured`: the well-known classes.
* `Founded`: the thread that the start runs on, its peer and its groups.
* `Delegated`: the delegate, if there is a class for it.
-/

namespace ClassHost

/-- The names of the core classes, in the order in which they are kept. -/
def CoreName.core : List String := [object, classObject, string, cloneable, serializable]

/-- The names of the exception classes, in the order in which they are kept. -/
def CoreName.exceptions : List String :=
  [nullPointerException, arrayIndexOutOfBoundsException, classNotFoundException, internalError,
    inputOutputException]

theorem CoreName.not_mem_exceptions : ∀ name ∈ core, name ∉ exceptions := by
  decide

variable {σ : Type} {m m' : Machine σ} {touched : List Aspect} {calls : List Call}

namespace Machine

/-- The well-known classes have been found, initialised, tagged and kept. -/
structure Captured (m : Machine σ) (known : WellKnown) : Prop where
  kept : m.wellKnown = some known
  core : m.table.Finds CoreName.core known.core
  exceptions : m.table.Finds CoreName.exceptions known.exceptions
  initialized : ∀ name ∈ CoreName.core ++ CoreName.exceptions, m.Initialized name
  coreRole : ∀ name ∈ CoreName.core, m.HasRole name .coreLibrary
  exceptionRole : ∀ name ∈ CoreName.exceptions, m.HasRole name .exception
  useCaches : m.HasStatic CoreName.classObject Procedure.useCachesField (.int 0)

/-- A thread has a peer with a handle, a priority and a group, and there are the two groups. -/
structure Founded (m : Machine σ) (thread : ThreadId) (handle : Int64)
    (main : Procedure.MainThread) : Prop where
  threadType : m.table.find? CoreName.thread = some main.threadType
  groupType : m.table.find? CoreName.threadGroup = some main.groupType
  threadInitialized : m.Initialized CoreName.thread
  groupInitialized : m.Initialized CoreName.threadGroup
  attached : m.HasPeer thread handle main.peer
  peer : m.IsInstance main.peer CoreName.thread
  handle : m.HasField main.peer Procedure.handleField (.long handle)
  priority : m.HasField main.peer Procedure.priorityField (.int 5)
  group : m.HasField main.peer Procedure.groupField (.object main.mainGroup)
  systemGroup : m.IsInstance main.systemGroup CoreName.threadGroup
  mainGroup : m.IsInstance main.mainGroup CoreName.threadGroup
  distinct : main.systemGroup ≠ main.mainGroup

/-- What a start leaves of the delegate, and the call that constructed it. The array of arguments
is described as it was before that call, which ended with the machine as it is now, but for the
delegate and how far the start has got. -/
inductive Delegated (engine : Engine σ) (thread : ThreadId) (arguments : List String)
    (m : Machine σ) : List Call → Prop where
  | absent (hclass : ∀ name, m.delegateClass = some name → m.table.find? name = none)
      (hdelegate : m.loader.delegate = none) : Delegated engine thread arguments m []
  | present {name : String} {type : ClassId} {constructor : MethodRef} {delegate array : ObjectId}
      {fuel : Nat} {before after : Machine σ} {result : Option Value}
      (hclass : m.delegateClass = some name) (hfind : m.table.find? name = some type)
      (hconstructor : m.table.method? .any type Procedure.delegateConstructor = some constructor)
      (hinstance : m.IsInstance delegate name)
      (harguments : before.StringArray array arguments)
      (hrun : perform engine fuel
        (.request (.invoke thread constructor [.object delegate, .object array])) before =
          (.ok (.ok result), after))
      (hafter : m = { after with
        loader := { after.loader with delegate := some delegate }, boot := m.boot }) :
      Delegated engine thread arguments m
        [⟨thread, constructor, [.object delegate, .object array]⟩]

end Machine

/-- What is touched while the well-known classes are captured. -/
def Aspect.ofCapture : List Aspect :=
  CoreName.core.map .role ++ (CoreName.exceptions.map .role ++
    [.statics CoreName.classObject, .wellKnown])

theorem Evolves.captured {known : WellKnown} (h : Evolves touched calls m m')
    (hcapture : ∀ aspect ∈ Aspect.ofCapture, aspect ∉ touched)
    (hstate : ∀ name ∈ CoreName.core ++ CoreName.exceptions, .state name ∉ touched)
    (hfact : m.Captured known) : m'.Captured known where
  kept := by
    have hkept : Aspect.wellKnown ∉ touched := hcapture _ (by simp [Aspect.ofCapture])
    rw [h.touches.wellKnown (by simpa using hkept), hfact.kept]
  core := h.finds hfact.core
  exceptions := h.finds hfact.exceptions
  initialized name hname := h.initialized (hstate name hname) (hfact.initialized name hname)
  coreRole name hname := by
    refine h.hasRole (hcapture _ ?_) (hfact.coreRole name hname)
    exact List.mem_append_left _ (List.mem_map_of_mem hname)
  exceptionRole name hname := by
    refine h.hasRole (hcapture _ ?_) (hfact.exceptionRole name hname)
    exact List.mem_append_right _ (List.mem_append_left _ (List.mem_map_of_mem hname))
  useCaches := h.hasStatic (hcapture _ (by simp [Aspect.ofCapture])) hfact.useCaches

theorem Evolves.founded {thread : ThreadId} {handle : Int64} {main : Procedure.MainThread}
    (h : Evolves touched calls m m') (hthread : .state CoreName.thread ∉ touched)
    (hgroup : .state CoreName.threadGroup ∉ touched) (hpeer : .object main.peer ∉ touched)
    (hfact : m.Founded thread handle main) : m'.Founded thread handle main where
  threadType := h.touches.table.find? hfact.threadType
  groupType := h.touches.table.find? hfact.groupType
  threadInitialized := h.initialized hthread hfact.threadInitialized
  groupInitialized := h.initialized hgroup hfact.groupInitialized
  attached := h.hasPeer hfact.attached
  peer := h.isInstance hfact.peer
  handle := h.hasField hpeer hfact.handle
  priority := h.hasField hpeer hfact.priority
  group := h.hasField hpeer hfact.group
  systemGroup := h.isInstance hfact.systemGroup
  mainGroup := h.isInstance hfact.mainGroup
  distinct := hfact.distinct

end ClassHost

namespace ClassHost.Procedure

variable {σ : Type} {engine : Engine σ} {fuel : Nat} {m m' : Machine σ} {thread : ThreadId}

-- ---------------------------------------------------------------------------
-- Parts that run no code
-- ---------------------------------------------------------------------------

theorem newPeer_ok {type : ClassId} {peer : ObjectId} {block : ThreadBlock}
    (hblock : m.thread? thread = some block)
    (h : (newPeer thread type).exec engine fuel m = (.ok (.ok peer), m')) :
    Evolves [] [] m m' ∧ m.heap.get? peer = none ∧ m'.HasPeer thread block.handle peer ∧
      m'.heap.get? peer = some ⟨type, .plain (storeField (storeField [] handleField
        (.long block.handle)) priorityField (.int normalPriority))⟩ := by
  obtain ⟨object, m₁, hnew, h⟩ := exec_bind_ok h
  obtain ⟨hmakes, hfresh, hobject⟩ := newObject_ok hnew
  replace h := observe_bind_ok h
  obtain ⟨block', hblock', hframe⟩ := hmakes.touches.threads.get? hblock
  obtain ⟨_, m₂, hhandle, h⟩ := exec_bind_ok h
  rw [show m₁.thread? thread = some block' from hblock', Option.map_some, Option.getD_some,
    hframe.handle] at hhandle
  obtain ⟨hsets, hobject⟩ := setObjectField_ok hobject hhandle
  obtain ⟨_, m₃, hpriority, h⟩ := exec_bind_ok h
  obtain ⟨hsets', hobject⟩ := setObjectField_ok hobject hpriority
  obtain ⟨_, m₄, hattach, h⟩ := exec_bind_ok h
  -- the thread keeps its block over the writes, so the handle written is the handle it has
  have hwrites := hmakes.trans (hsets.trans hsets')
  obtain ⟨block'', hblock'', hframe'⟩ := hwrites.touches.threads.get? hblock
  obtain ⟨hattaches, hattached⟩ := attachPeer_ok hblock'' (exec_orFatal_ok hattach)
  obtain ⟨rfl, rfl⟩ := pure_ok h
  refine ⟨.of_fresh hfresh ((hwrites.trans hattaches).mono (by simp)), hfresh,
    hframe'.handle ▸ hattached, ?_⟩
  exact hattaches.plain List.not_mem_nil hobject

theorem checkDeclared_ok {type : ClassId} {methods : List (MethodKey × Override)}
    (h : (checkDeclared type methods).exec engine fuel m = (.ok (.ok ()), m')) : m' = m := by
  induction methods with
  | nil => exact (pure_ok h).2
  | cons method methods ih =>
    obtain ⟨found, middle, hfound, hrest⟩ := exec_bind_ok h
    obtain ⟨rfl, -⟩ := declared_ok hfound
    exact ih hrest

theorem installModules_ok {modules : List OverrideModule}
    (h : (installModules modules).exec engine fuel m = (.ok (.ok ()), m')) :
    Evolves [] [] m m' := by
  induction modules generalizing m with
  | nil =>
    obtain ⟨-, rfl⟩ := pure_ok h
    exact .refl m'
  | cons entry modules ih =>
    obtain ⟨type, m₁, hload, h⟩ := exec_bind_ok h
    obtain ⟨hloads, -⟩ := loadRequired_ok hload
    obtain ⟨_, m₂, hcheck, h⟩ := exec_bind_ok h
    replace hloads := checkDeclared_ok hcheck ▸ hloads
    obtain ⟨_, m₃, hinstall, h⟩ := exec_bind_ok h
    have hinstalls : Evolves [] [] m₂ m₃ := by
      obtain ⟨-, rfl⟩ := Prod.mk.inj (exec_upkeep_ok hinstall)
      exact .of_touches (Machine.touches_install entry m₂) List.not_mem_nil
    exact hloads.trans (hinstalls.trans (ih h))

section Calls

variable (hengine : ∀ call, (engine.respond call).Only Request.Restrained)
  (hboot : m.boot ≠ .notBooted)

include hengine hboot

-- ---------------------------------------------------------------------------
-- Well-known classes
-- ---------------------------------------------------------------------------

theorem findWellKnown_ok {known : WellKnown} (hidle : ∀ name, m.Idle name)
    (h : (findWellKnown thread).exec engine fuel m = (.ok (.ok known), m')) :
    Evolves [] [] m m' ∧ m'.table.Finds CoreName.core known.core ∧
      m'.table.Finds CoreName.exceptions known.exceptions ∧
      ∀ name ∈ CoreName.core ++ CoreName.exceptions, m'.Initialized name := by
  -- one class after the other joins what has been gathered; the pool is bound in between
  obtain ⟨classObject, m₁, h₁, h⟩ := exec_bind_ok h
  have hg := (Gathered.refl m).require hengine hboot (hidle _) h₁
  obtain ⟨object, m₂, h₂, h⟩ := exec_bind_ok h
  replace hg := hg.require hengine hboot (hidle _) h₂
  obtain ⟨string, m₃, h₃, h⟩ := exec_bind_ok h
  replace hg := hg.require hengine hboot (hidle _) h₃
  obtain ⟨_, m₄, hbind, h⟩ := exec_bind_ok h
  replace hg := hg.evolve (evolves_of_apply
    (Machine.apply_of_perform_access (perform_of_exec (exec_orFatal_ok hbind))))
  obtain ⟨cloneable, m₅, h₅, h⟩ := exec_bind_ok h
  replace hg := hg.require hengine hboot (hidle _) h₅
  obtain ⟨serializable, m₆, h₆, h⟩ := exec_bind_ok h
  replace hg := hg.require hengine hboot (hidle _) h₆
  obtain ⟨nullPointer, m₇, h₇, h⟩ := exec_bind_ok h
  replace hg := hg.require hengine hboot (hidle _) h₇
  obtain ⟨arrayIndex, m₈, h₈, h⟩ := exec_bind_ok h
  replace hg := hg.require hengine hboot (hidle _) h₈
  obtain ⟨classNotFound, m₉, h₉, h⟩ := exec_bind_ok h
  replace hg := hg.require hengine hboot (hidle _) h₉
  obtain ⟨internalError, m₁₀, h₁₀, h⟩ := exec_bind_ok h
  replace hg := hg.require hengine hboot (hidle _) h₁₀
  obtain ⟨inputOutput, m₁₁, h₁₁, h⟩ := exec_bind_ok h
  replace hg := hg.require hengine hboot (hidle _) h₁₁
  obtain ⟨rfl, rfl⟩ := pure_ok h
  refine ⟨hg.evolves, ?_, ?_, fun name hname => ?_⟩
  · exact .cons (hg.find? (by simp)) (.cons (hg.find? (by simp)) (.cons (hg.find? (by simp))
      (.cons (hg.find? (by simp)) (.cons (hg.find? (by simp)) .nil))))
  · exact .cons (hg.find? (by simp)) (.cons (hg.find? (by simp)) (.cons (hg.find? (by simp))
      (.cons (hg.find? (by simp)) (.cons (hg.find? (by simp)) .nil))))
  · simp only [CoreName.core, CoreName.exceptions, List.cons_append, List.nil_append, List.mem_cons,
      List.not_mem_nil, or_false] at hname
    rcases hname with rfl | rfl | rfl | rfl | rfl | rfl | rfl | rfl | rfl | rfl <;>
      exact hg.initialized_of_mem (by simp)

theorem captureWellKnown_ok (hempty : m.table = .empty)
    (h : (captureWellKnown thread).exec engine fuel m = (.ok (.ok ()), m')) :
    Evolves Aspect.ofCapture [] m m' ∧ ∃ known, m'.Captured known := by
  obtain ⟨known, found, hfound, h⟩ := exec_bind_ok h
  obtain ⟨hfinds, hcore, hexceptions, hinit⟩ :=
    findWellKnown_ok hengine hboot (Machine.idle_of_empty hempty) hfound
  have huntagged : ∀ name, found.Untagged name := fun name =>
    hfinds.untagged List.not_mem_nil (Machine.untagged_of_empty hempty name)
  obtain ⟨_, m₁, htag, h⟩ := exec_bind_ok h
  obtain ⟨htags, hcoreRole⟩ := tagAll_ok hcore (by decide) (fun name _ => huntagged name) htag
  obtain ⟨_, m₂, htag', h⟩ := exec_bind_ok h
  -- tagging the core classes leaves the exception classes untagged, as the two lists are disjoint
  have huntagged' : ∀ name ∈ CoreName.exceptions, m₁.Untagged name := fun name hname =>
    htags.untagged (by simpa using fun hcore => CoreName.not_mem_exceptions name hcore hname)
      (huntagged name)
  obtain ⟨htags', hexceptionRole⟩ :=
    tagAll_ok (htags.finds hexceptions) (by decide) huntagged' htag'
  obtain ⟨_, m₃, hset, h⟩ := exec_bind_ok h
  have hclass : found.table.find? CoreName.classObject = some known.classObject :=
    (List.forall₂_cons.mp (List.forall₂_cons.mp hcore).2).1
  obtain ⟨hsets, huseCaches⟩ :=
    setStatic_ok (htags'.touches.table.find? (htags.touches.table.find? hclass)) hset
  obtain ⟨captured, m₄, hcapture, h⟩ := exec_bind_ok h
  cases captured with
  | false => exact nomatch Except.ok.inj (Prod.mk.inj h).1
  | true =>
    obtain ⟨-, rfl⟩ := pure_ok h
    obtain ⟨hkeeps, hkept⟩ := capture_ok hcapture
    -- each fact is carried over exactly the steps that come after the one it was gained by
    have hlast := hsets.trans hkeeps
    have hafter := htags'.trans hlast
    have hall := htags.trans hafter
    refine ⟨hfinds.trans hall, known, {
      kept := hkept
      core := hall.finds hcore
      exceptions := hall.finds hexceptions
      initialized := fun name hname => hall.initialized (by simp) (hinit name hname)
      coreRole := fun name hname => hafter.hasRole ?_ (hcoreRole name hname)
      exceptionRole := fun name hname => hlast.hasRole (by simp) (hexceptionRole name hname)
      useCaches := hkeeps.hasStatic (by simp) huseCaches }⟩
    simpa using CoreName.not_mem_exceptions name hname

-- ---------------------------------------------------------------------------
-- The main thread
-- ---------------------------------------------------------------------------

theorem newMainThread_ok {main : MainThread} {block : ThreadBlock}
    (hblock : m.thread? thread = some block) (hthread : m.Idle CoreName.thread)
    (hgroup : m.Idle CoreName.threadGroup)
    (h : (newMainThread thread).exec engine fuel m = (.ok (.ok main), m')) :
    ∃ constructor, m'.table.method? .any main.groupType systemGroupConstructor = some constructor ∧
      Evolves [] [⟨thread, constructor, [.object main.systemGroup]⟩] m m' ∧
      m'.Founded thread block.handle main := by
  obtain ⟨threadType, m₁, h₁, h⟩ := exec_bind_ok h
  have hg := (Gathered.refl m).require hengine hboot hthread h₁
  obtain ⟨groupType, m₂, h₂, h⟩ := exec_bind_ok h
  replace hg := hg.require hengine hboot hgroup h₂
  -- the peer, with its handle and its priority
  obtain ⟨peer, m₃, h₃, h⟩ := exec_bind_ok h
  obtain ⟨block', hblock', hframe⟩ := hg.evolves.touches.threads.get? hblock
  obtain ⟨hpeers, hfresh, hattached, hpeer⟩ := newPeer_ok hblock' h₃
  -- the outermost group
  obtain ⟨systemGroup, m₄, h₄, h⟩ := exec_bind_ok h
  obtain ⟨hsystem, -, hsystemGroup⟩ := newObject_ok h₄
  have hbefore := hg.evolves.trans (hpeers.trans hsystem)
  obtain ⟨_, m₅, h₅, h⟩ := exec_bind_ok h
  obtain ⟨constructor, hmethod, hcalls⟩ := callDeclared_pure_ok hengine (hbefore.started hboot)
    (.of_name (by decide)) (by decide) h₅
  -- the main group
  obtain ⟨mainGroup, m₆, h₆, h⟩ := exec_bind_ok h
  obtain ⟨hmain, hfresh', hmainGroup⟩ := newObject_ok h₆
  obtain ⟨_, m₇, h₇, h⟩ := exec_bind_ok h
  have hcalled := hcalls.trans hmain
  obtain ⟨hgroups, hpeer'⟩ :=
    setObjectField_ok ((hsystem.trans hcalled).plain List.not_mem_nil hpeer) h₇
  obtain ⟨rfl, rfl⟩ := pure_ok h
  -- the peer is new since `m₂`, so what is written into it since then changes no older object
  have hafter := hcalls.trans (hmain.trans hgroups)
  have hrest := hpeers.trans (hsystem.trans hafter)
  have htouches : Evolves [] [⟨thread, constructor, [.object systemGroup]⟩] m₂ m' :=
    .of_fresh hfresh hrest
  have hthreadType : m₂.table.find? CoreName.thread = some threadType := hg.find? (by simp)
  have hgroupType : m₂.table.find? CoreName.threadGroup = some groupType := hg.find? (by simp)
  have hsystemInstance : m₄.IsInstance systemGroup CoreName.threadGroup :=
    ⟨_, hsystemGroup, (hpeers.trans hsystem).touches.table.find? hgroupType⟩
  have hmainInstance : m₆.IsInstance mainGroup CoreName.threadGroup :=
    ⟨_, hmainGroup, (hpeers.trans (hsystem.trans hcalled)).touches.table.find? hgroupType⟩
  refine ⟨constructor, hafter.method? hmethod, hg.evolves.trans htouches, {
    threadType := hrest.touches.table.find? hthreadType
    groupType := hrest.touches.table.find? hgroupType
    threadInitialized := htouches.initialized List.not_mem_nil (hg.initialized_of_mem (by simp))
    groupInitialized := htouches.initialized List.not_mem_nil (hg.initialized_of_mem (by simp))
    attached := hframe.handle ▸ (hsystem.trans hafter).hasPeer hattached
    peer := ⟨_, hpeer', hrest.touches.table.find? hthreadType⟩
    handle := .of_plain hpeer' ?_
    priority := .of_plain hpeer' ?_
    group := .of_plain hpeer' (lookup_storeField _ _ _)
    systemGroup := hafter.isInstance hsystemInstance
    mainGroup := hgroups.isInstance hmainInstance
    distinct := ?_ }⟩
  · have hgroup : handleField ≠ groupField := by decide
    have hpriority : handleField ≠ priorityField := by decide
    rw [lookup_storeField_of_ne hgroup, lookup_storeField_of_ne hpriority, lookup_storeField,
      hframe.handle]
  · have hgroup : priorityField ≠ groupField := by decide
    rw [lookup_storeField_of_ne hgroup, lookup_storeField]
    rfl
  · -- the second group is fresh where the first already is an object
    intro heq
    obtain rfl : systemGroup = mainGroup := heq
    obtain ⟨object, hobject, -⟩ := hcalls.isInstance hsystemInstance
    rw [hfresh'] at hobject
    exact nomatch hobject

/-- `System` is claimed, and what it needs is initialised. -/
theorem claimSystem_ok {type : ClassId} (hidle : ∀ name ≠ CoreName.system, m.Idle name)
    (huntagged : m.Untagged CoreName.system)
    (h : (claimSystem thread).exec engine fuel m = (.ok (.ok type), m')) :
    Evolves [.role CoreName.system, .state CoreName.system] [] m m' ∧
      m'.table.find? CoreName.system = some type ∧ m'.HasRole CoreName.system .coreLibrary ∧
      ∀ name ∈ [CoreName.inputStream, CoreName.printStream, CoreName.securityManager],
        m'.Initialized name := by
  obtain ⟨system, m₁, hload, h⟩ := exec_bind_ok h
  obtain ⟨hloads, hfind⟩ := loadRequired_ok hload
  obtain ⟨tagged, m₂, htag, h⟩ := exec_bind_ok h
  obtain ⟨htags, hrole⟩ := tag_ok hfind htag
  obtain ⟨_, m₃, hset, h⟩ := exec_bind_ok h
  obtain ⟨hsets, -⟩ := setState_ok (htags.touches.table.find? hfind) hset
  -- only `System` itself is no longer idle when the other classes are required
  have hclaims := hloads.trans (htags.trans hsets)
  have hidle' : ∀ name ≠ CoreName.system, m₃.Idle name := fun name hname =>
    hclaims.idle (by simpa using hname) (hidle name hname)
  have hboot' := hclaims.started hboot
  obtain ⟨inputStream, m₄, h₄, h⟩ := exec_bind_ok h
  have hg := (Gathered.refl m₃).require hengine hboot' (hidle' _ (by decide)) h₄
  obtain ⟨printStream, m₅, h₅, h⟩ := exec_bind_ok h
  replace hg := hg.require hengine hboot' (hidle' _ (by decide)) h₅
  obtain ⟨securityManager, m₆, h₆, h⟩ := exec_bind_ok h
  replace hg := hg.require hengine hboot' (hidle' _ (by decide)) h₆
  obtain ⟨rfl, rfl⟩ := pure_ok h
  have hafter := hsets.trans hg.evolves
  refine ⟨hclaims.trans hg.evolves, (htags.trans hafter).touches.table.find? hfind, ?_, ?_⟩
  · exact hafter.hasRole (by simp)
      (hrole (hloads.untagged List.not_mem_nil huntagged))
  · intro name hname
    refine hg.initialized_of_mem ?_
    simp only [List.mem_cons, List.not_mem_nil, or_false] at hname
    rcases hname with rfl | rfl | rfl <;> simp

/-- The default charset is a new one, and is where the library expects it. -/
theorem applyOverrides_ok (hcharset : m.Idle CoreName.charset) (hutf8 : m.Idle CoreName.utf8)
    (h : (applyOverrides thread).exec engine fuel m = (.ok (.ok ()), m')) :
    ∃ utf8, Evolves [.statics CoreName.charset, .charset] [] m m' ∧
      m'.Initialized CoreName.charset ∧ m'.Initialized CoreName.utf8 ∧
      m'.IsInstance utf8 CoreName.utf8 ∧ m'.charset = some utf8 ∧
      m'.HasStatic CoreName.charset defaultCharsetField (.object utf8) := by
  obtain ⟨charsetType, m₁, h₁, h⟩ := exec_bind_ok h
  have hg := (Gathered.refl m).require hengine hboot hcharset h₁
  obtain ⟨utf8Type, m₂, h₂, h⟩ := exec_bind_ok h
  replace hg := hg.require hengine hboot hutf8 h₂
  obtain ⟨utf8, m₃, h₃, h⟩ := exec_bind_ok h
  obtain ⟨hmakes, -, hobject⟩ := newObject_ok h₃
  replace hg := hg.evolve hmakes
  have hcharsetType : m₃.table.find? CoreName.charset = some charsetType := hg.find? (by simp)
  obtain ⟨_, m₄, h₄, h⟩ := exec_bind_ok h
  obtain ⟨hsets, hstatic⟩ := setStatic_ok hcharsetType h₄
  obtain ⟨set, m₅, h₅, h⟩ := exec_bind_ok h
  cases set with
  | false => exact nomatch Except.ok.inj (Prod.mk.inj h).1
  | true =>
    obtain ⟨hkeeps, hkept⟩ := setCharset_ok h₅
    have hinstalls := installModules_ok h
    have hafter := hkeeps.trans hinstalls
    -- the charset is set once, and installing the modules does not touch it
    have hall := hsets.trans hafter
    refine ⟨utf8, hg.evolves.trans hall, ?_, ?_, ?_, ?_, hafter.hasStatic (by simp) hstatic⟩
    · exact hall.initialized (by simp) (hg.initialized_of_mem (by simp))
    · exact hall.initialized (by simp) (hg.initialized_of_mem (by simp))
    · exact hall.isInstance ⟨_, hobject, hg.find? (by simp)⟩
    · rw [hinstalls.touches.charset (by simp), hkept]

/-- The delegate is made and constructed, if there is a class for it. -/
theorem installDelegate_ok {arguments : List String} (hnone : m.loader.delegate = none)
    (h : (installDelegate thread arguments).exec engine fuel m = (.ok (.ok ()), m')) :
    ∃ calls, Evolves [.delegate] calls m m' ∧ m'.Delegated engine thread arguments calls := by
  replace h := observe_bind_ok h
  cases hclass : m.delegateClass with
  | none =>
    rw [hclass] at h
    obtain ⟨-, rfl⟩ := pure_ok h
    exact ⟨[], .refl _, .absent (by simp [hclass]) hnone⟩
  | some name =>
    rw [hclass] at h
    obtain ⟨found, m₁, hload, h⟩ := exec_bind_ok h
    obtain ⟨hloads, hfind, hmissing⟩ := load_ok (exec_orFatal_ok hload)
    cases found with
    | none =>
      obtain ⟨-, rfl⟩ := pure_ok h
      refine ⟨[], hloads.mono (List.nil_subset _), .absent ?_ ?_⟩
      · intro other hother
        rw [hloads.touches.delegateClass, hclass] at hother
        exact Option.some.inj hother ▸ hmissing rfl
      · rw [hloads.touches.delegate (by simp), hnone]
    | some type =>
      have hfind := hfind type rfl
      obtain ⟨_, m₂, hinit, h⟩ := exec_bind_ok h
      have hinits := (initialized_ok hengine (hloads.started hboot) hinit).1
      obtain ⟨delegate, m₃, hnew, h⟩ := exec_bind_ok h
      obtain ⟨hmakes, -, hobject⟩ := newObject_ok hnew
      obtain ⟨constructor, _, hdeclared, hrest⟩ := exec_bind_ok h
      obtain ⟨rfl, hmethod⟩ := declared_ok hdeclared
      replace hrest := observe_bind_ok hrest
      obtain ⟨array, m₅, harray, hrest⟩ := exec_bind_ok hrest
      obtain ⟨hfills, hstrings⟩ := newStringArray_ok (exec_orFatal_ok harray)
      obtain ⟨_, m₆, hinvoke, hrest⟩ := exec_bind_ok hrest
      obtain ⟨hsets, hset⟩ := setDelegate_ok (exec_orFatal_ok hrest)
      obtain ⟨result, hrun⟩ := perform_of_invokeRequired hinvoke
      have hkey := (ClassTable.eq_of_method? hmethod).2
      have hbefore := hloads.trans (hinits.trans (hmakes.trans hfills))
      -- the constructor is no class initialiser, so its call is among the start's own
      have hcalls := invokeRequired_ok hengine (hbefore.started hboot)
        (hkey ▸ .of_name (by decide)) hinvoke
      have hne : constructor.key ≠ initializerKey := by
        rw [hkey]
        decide
      rw [Call.own_of_ne hne] at hcalls
      have hlast := hcalls.trans hsets
      have hafter := hfills.trans hlast
      have hfound := (hinits.trans hmakes).touches.table.find? hfind
      refine ⟨[⟨thread, constructor, [.object delegate, .object array]⟩], hbefore.trans hlast,
        .present (by rw [(hbefore.trans hlast).touches.delegateClass, hclass])
          (hafter.touches.table.find? hfound) (hafter.method? hmethod) ?_ hstrings hrun
          (by rw [hset])⟩
      exact hafter.isInstance ⟨_, hobject, hfound⟩

end Calls

end ClassHost.Procedure
