import ClassHost.Proofs.Boot.Conduct
import ClassHost.Proofs.Boot.Started
import ClassHost.Proofs.Machine.AloofEngine

/-!
# What a start requires of the class path

`Finder.Complete` lists what a start needs from a class path: the classes that it asks for, the
super classes of those that it initialises, and the methods that it calls or overrides. With an
aloof engine a start that succeeds has met all of it (`complete_of_bootSequence`).

A start looks for classes and methods on the way, so these have been found when it is over. Super
classes are another matter. What is known at the end is that whatever is initialised has a claimed
super class, since every step keeps that (`advances_of_inBoot`), and that nothing but the two
classes that a start claims can have been left half way. So from an initialised class on, all super
classes are initialised classes of the table, as long as none of them is one of these two; and the
table is finite.
-/

namespace ClassHost

open Procedure

variable {σ : Type} {engine : Engine σ} {fuel : Nat} {m m' : Machine σ} {thread : ThreadId}
  {finder : Finder} {name : String} {except : List String}

/-- The seventeen classes that a start initialises by itself: all that its first nine steps ask for
but the claimed ones, and those of charsets. -/
def CoreName.initialized : List String :=
  foundation.filter (· ∉ claimed) ++ [charset, utf8]

/-- What a start requires of a class path. -/
structure Finder.Complete (finder : Finder) : Prop where
  /-- The twenty classes that a start asks for are there. -/
  loads : ∀ name ∈ CoreName.required, ∃ c, finder.loaded? name = some c
  /-- Those that it initialises have super classes that are there, one after the other. -/
  supersLoad : ∀ name ∈ CoreName.initialized, finder.SupersLoad [] name
  /-- Thread groups and threads can be constructed. -/
  systemGroup : finder.Declares .any CoreName.threadGroup systemGroupConstructor
  mainGroup : finder.Declares .any CoreName.threadGroup groupConstructor
  mainThread : finder.Declares .any CoreName.thread threadConstructor
  /-- The library can set itself up: the first method of that key has to be a static one. -/
  setup : finder.Declares .static CoreName.system systemSetup
  /-- The methods that are overridden are declared: `load` and `loadLibrary` of `System`, and the
  factory of stream encoders. -/
  overrides : ∀ entry ∈ OverrideModule.builtin, ∀ method ∈ entry.methods,
    finder.Declares .any entry.className method.1

-- ---------------------------------------------------------------------------
-- What the steps of a start keep
-- ---------------------------------------------------------------------------

theorem advances_access {access : Access σ} (h : access.Plain) (m : Machine σ) :
    Advances finder except m (access.apply m).2 :=
  .of_step (Access.step h m).1 (Access.step h m).2

theorem advances_upkeep (upkeep : Upkeep) (m : Machine σ) :
    Advances finder except m (upkeep.apply m).2 := by
  cases upkeep with
  | note event => exact .of_eq rfl rfl
  | setBoot state => exact .of_eq rfl rfl
  | install entry => exact .of_eq rfl rfl
  | capture known =>
    rw [Upkeep.apply_capture]
    split <;> exact .of_eq rfl rfl
  | setCharset charset =>
    rw [Upkeep.apply_setCharset]
    split <;> exact .of_eq rfl rfl

/-- The steps of a start with an aloof engine, as long as they do not fail. The claimed classes are
the exception that it makes itself. -/
theorem advances_of_inBoot (haloof : engine.Aloof) {part : Asked σ} (hpart : part.InBoot)
    {reply : part.step.Reply} (hverdict : part.verdict reply = none)
    (hrun : Machine.perform engine fuel part.step part.machine = (.ok reply, m')) :
    Advances finder CoreName.claimed part.machine m' := by
  obtain ⟨step, m⟩ := part
  -- the steps of a start: accesses, initialisations, calls of methods that nobody overrides, and upkeep
  match step, hpart, reply, hverdict, hrun with
  | .request (.access access), hpart, reply, _, hrun =>
    have happly := Machine.apply_of_perform_access hrun
    obtain ⟨-, rfl⟩ := Prod.mk.inj happly
    have hplain : access.Plain ∨ ∃ type state, access = .setState type state := by
      cases access <;> first | exact .inl trivial | exact .inr ⟨_, _, rfl⟩ | exact hpart.elim
    rcases hplain with hplain | ⟨type, state, rfl⟩
    · exact advances_access hplain m
    · -- only the claimed classes are stored, and they are excepted
      refine .setState hpart.1 fun _ c hget hname _ => absurd hpart.2 ?_
      rwa [Machine.className, ClassTable.nameOf_of_get? hget]
  | .request (.initClass _ type), _, .ok (), _, hrun => exact advances_initClass haloof fuel type hrun
  | .request (.invoke thread method arguments), hplain, _, _, hrun =>
    obtain ⟨_, -, hnotes⟩ := (achieves_invoke haloof hplain arguments m).of_exec
      ((exec_invoke thread method arguments).trans hrun)
    exact .notes hnotes
  | .upkeep upkeep, _, reply, _, hrun =>
    obtain ⟨-, rfl⟩ := Prod.mk.inj (Machine.apply_of_perform_upkeep hrun)
    exact advances_upkeep upkeep m

-- ---------------------------------------------------------------------------
-- Super classes
-- ---------------------------------------------------------------------------

/-- The names of the classes of a table. -/
def ClassTable.stock (table : ClassTable) : Finset String :=
  (table.classes.toList.map LoadedClass.name).toFinset

theorem ClassTable.mem_stock {table : ClassTable} {type : ClassId} {c : LoadedClass}
    (h : table.get? type = some c) : c.name ∈ table.stock := by
  have hmem : c ∈ table.classes := Array.mem_of_getElem? h
  exact List.mem_toFinset.mpr (List.mem_map_of_mem (Array.mem_toList_iff.mpr hmem))

/-- From an initialised class on, all super classes are initialised, if nothing was left half way
and none of them is an exception. -/
theorem initialized_of_reachable {other : String} (hfaithful : m.Faithful finder)
    (hsupers : m.SupersClaimed except) (hidle : ∀ other ∉ except, m.Idle other)
    (hfree : ∀ other ∈ except, ¬ Relation.TransGen finder.Super name other) (hname : name ∉ except)
    (hinit : m.Initialized name) (h : Relation.ReflTransGen finder.Super name other) :
    other ∉ except ∧ m.Initialized other := by
  induction h with
  | refl => exact ⟨hname, hinit⟩
  | @tail other superName hreach hsuper ih =>
    obtain ⟨hother, c, hnamed, hstate⟩ := ih
    -- one super class further: it is claimed, and since it is idle it is initialised
    have hnext : superName ∉ except := fun hmem =>
      hfree superName hmem (Relation.TransGen.tail' hreach hsuper)
    obtain ⟨type, hfind, hget, hcname⟩ := ClassTable.find?_of_named? hnamed
    obtain ⟨d, hd, harray, hdsuper⟩ := hsuper
    have hfile := hfaithful.settled.file?_eq hfind hget hd
    have hcsuper : (m.table.get? type).bind LoadedClass.superName? = some superName := by
      rw [hget]
      exact (LoadedClass.superName?_of_file?_eq hfile).trans hdsuper
    obtain ⟨superType, hsuperFind, hclaimed⟩ := hsupers type c hget hstate (hcname ▸ hother)
      ((LoadedClass.isArray_of_file?_eq hfile).trans harray) superName hcsuper
    obtain ⟨c', hget', hnamed', hname'⟩ := ClassTable.exists_named? hsuperFind
    rw [Machine.Claimed, ClassTable.stateOf_of_get? hget'] at hclaimed
    have hbusy := hidle superName hnext superType c' hget' hname'
    exact ⟨hnext, c', hnamed', hclaimed.resolve_left hbusy⟩

/-- So they come to an end. -/
theorem supersLoad_of_initialized (hfaithful : m.Faithful finder) (hsupers : m.SupersClaimed except)
    (hidle : ∀ other ∉ except, m.Idle other)
    (hfree : ∀ other ∈ except, ¬ Relation.TransGen finder.Super name other) (hname : name ∉ except)
    (hinit : m.Initialized name) : finder.SupersLoad [] name := by
  refine Finder.supersLoad_of_reachable m.table.stock (fun other hreach => ?_) []
  obtain ⟨-, c, hnamed, -⟩ :=
    initialized_of_reachable hfaithful hsupers hidle hfree hname hinit hreach
  obtain ⟨type, hfind, hget, rfl⟩ := ClassTable.find?_of_named? hnamed
  obtain ⟨d, hd, -⟩ := hfaithful.settled.exists_loaded? hfind hget
  exact ⟨ClassTable.mem_stock hget, d, hd⟩

-- ---------------------------------------------------------------------------
-- Overridden methods
-- ---------------------------------------------------------------------------

/-- The class of a module is there, and declares the methods of the module. -/
def OverrideModule.Declared (entry : OverrideModule) (table : ClassTable) : Prop :=
  ∃ type, table.find? entry.className = some type ∧
    ∀ method ∈ entry.methods, ∃ found, table.method? .any type method.1 = some found

/-- Methods are declared for good. -/
theorem ClassTable.Keeps.method? {table table' : ClassTable} (h : table.Keeps table')
    {kind : MethodKind} {type : ClassId} {key : MethodKey} {method : MethodRef}
    (hmethod : table.method? kind type key = some method) :
    table'.method? kind type key = some method := by
  refine ClassTable.method?_of_kind (fun c hget => ?_) hmethod
  obtain ⟨c', hget', -, hkind⟩ := h.get? hget
  exact ⟨c', hget', hkind⟩

theorem OverrideModule.Declared.keep {table table' : ClassTable} {entry : OverrideModule}
    (hentry : entry.Declared table) (h : table.Keeps table') : entry.Declared table' := by
  obtain ⟨type, hfind, hmethods⟩ := hentry
  refine ⟨type, h.find? hfind, fun method hmem => ?_⟩
  obtain ⟨found, hfound⟩ := hmethods method hmem
  exact ⟨found, h.method? hfound⟩

namespace Procedure

variable {ε α : Type}

theorem declared_of_exec {procedure : Procedure σ ε α} {r : Except Halt (Except ε α)}
    {entry : OverrideModule} (h : exec engine fuel procedure m = (r, m'))
    (hentry : entry.Declared m.table) : entry.Declared m'.table := by
  have hkeeps := keeps_exec engine fuel procedure m
  rw [h] at hkeeps
  exact hentry.keep hkeeps

theorem methods_of_checkDeclared {type : ClassId} {methods : List (MethodKey × Override)}
    (h : exec engine fuel (checkDeclared type methods) m = (.ok (.ok ()), m')) :
    ∀ method ∈ methods, ∃ found, m.table.method? .any type method.1 = some found := by
  induction methods with
  | nil => nofun
  | cons method methods ih =>
    obtain ⟨found, middle, hfound, hrest⟩ := exec_bind_ok h
    obtain ⟨rfl, hmethod⟩ := declared_ok hfound
    exact List.forall_mem_cons.mpr ⟨⟨found, hmethod⟩, ih hrest⟩

theorem declared_of_installModules {modules : List OverrideModule}
    (h : exec engine fuel (installModules modules) m = (.ok (.ok ()), m')) :
    ∀ entry ∈ modules, entry.Declared m'.table := by
  induction modules generalizing m with
  | nil => nofun
  | cons entry modules ih =>
    obtain ⟨type, m₁, hload, h⟩ := exec_bind_ok h
    have hfind := (loadRequired_ok hload).2
    obtain ⟨_, m₂, hcheck, hrest⟩ := exec_bind_ok h
    obtain rfl := checkDeclared_ok hcheck
    have hentry : entry.Declared m₂.table := ⟨type, hfind, methods_of_checkDeclared hcheck⟩
    have hlast := declared_of_exec hrest hentry
    obtain ⟨_, m₃, -, hrest⟩ := exec_bind_ok hrest
    exact List.forall_mem_cons.mpr ⟨hlast, ih hrest⟩

theorem declared_of_finishLibrary {claimed : Claimed}
    (h : exec engine fuel (finishLibrary thread claimed) m = (.ok (.ok ()), m')) :
    ∀ entry ∈ OverrideModule.builtin, entry.Declared m'.table := by
  obtain ⟨_, applied, happly, hrest⟩ := exec_bind_ok h
  obtain ⟨_, _, -, happly⟩ := exec_bind_ok happly
  obtain ⟨_, _, -, happly⟩ := exec_bind_ok happly
  obtain ⟨_, _, -, happly⟩ := exec_bind_ok happly
  obtain ⟨_, _, -, happly⟩ := exec_bind_ok happly
  obtain ⟨set, _, -, happly⟩ := exec_bind_ok happly
  cases set with
  | false => exact nomatch Except.ok.inj (Prod.mk.inj happly).1
  | true =>
    exact fun entry hmem => declared_of_exec hrest (declared_of_installModules happly entry hmem)

end Procedure

-- ---------------------------------------------------------------------------
-- A start that succeeds
-- ---------------------------------------------------------------------------

theorem Machine.faithful_of_empty (hloader : m.loader = .empty) (hpath : m.classPath = finder) :
    m.Faithful finder := by
  have htable : m.table = .empty := congrArg Loader.table hloader
  exact {
    classPath := hpath
    wellFormed := htable ▸ ClassTable.wellFormed_empty
    settled := htable ▸ settled_empty finder
    present := by simp [htable] }

theorem Machine.supersClaimed_of_empty (hloader : m.loader = .empty) : m.SupersClaimed except := by
  have htable : m.table = .empty := congrArg Loader.table hloader
  intro type c hget
  simp [htable] at hget

/-- What is known of the classes once a start has succeeded. -/
theorem classes_of_bootSequence {arguments : List String} (haloof : engine.Aloof)
    (hloader : m.loader = .empty) (hpath : m.classPath = finder)
    (h : (bootSequence thread arguments).exec engine fuel m = (.ok (.ok ()), m')) :
    m'.Faithful finder ∧ m'.SupersClaimed CoreName.claimed ∧
      (∀ name ∈ CoreName.required, ∃ type, m'.table.find? name = some type) ∧
      ∀ entry ∈ OverrideModule.builtin, entry.Declared m'.table := by
  -- what every step of a start keeps, a whole start keeps
  have hadvances : Advances finder CoreName.claimed m m' :=
    (conducts_bootSequence thread arguments m).keeps
      (fun _ _ _ hpart hverdict hrun hm => hm.trans (advances_of_inBoot haloof hpart hverdict hrun))
      h (.of_eq rfl rfl)
  obtain ⟨claimed, _, hfoundation, hrest⟩ := exec_bind_ok h
  obtain ⟨_, _, hlibrary, hrest⟩ := exec_bind_ok hrest
  refine ⟨hadvances.faithful (Machine.faithful_of_empty hloader hpath),
    hadvances.supers (Machine.supersClaimed_of_empty hloader), fun name hname => ?_,
    fun entry hmem => ?_⟩
  · obtain ⟨type, hfind⟩ := exists_find?_of_library hfoundation hlibrary name hname
    exact ⟨type, find?_of_exec hrest hfind⟩
  · exact declared_of_exec hrest (declared_of_finishLibrary hlibrary entry hmem)

/-- The classes that a start initialises, and does not claim, are initialised at its end. -/
theorem initialized_of_prepared {handle : Int64} {found : Foundation} {utf8 : ObjectId}
    {setup : MethodRef} (hprepared : m.Prepared thread handle found)
    (hfurnished : m.Furnished utf8 setup) : ∀ name ∈ CoreName.initialized, m.Initialized name := by
  intro name hname
  -- every class that a start initialises is the concern of one of its parts
  have hwhere : name ∈ CoreName.core ++ CoreName.exceptions ∨
      name = CoreName.thread ∨ name = CoreName.threadGroup ∨
      name ∈ [CoreName.inputStream, CoreName.printStream, CoreName.securityManager] ∨
      name ∈ [CoreName.charset, CoreName.utf8, CoreName.system, CoreName.securityDebug] := by
    revert name
    decide
  rcases hwhere with hcore | rfl | rfl | hneed | hlast
  · exact hprepared.captured.initialized name hcore
  · exact hprepared.founded.threadInitialized
  · exact hprepared.founded.groupInitialized
  · exact hprepared.needs name hneed
  · exact hfurnished.initialized name hlast

/-- **What a start requires.** With an aloof engine, on a machine that has loaded nothing, a start
that succeeds has met it all, if none of the classes that it claims is a super class of one that it
initialises. -/
theorem complete_of_bootSequence {arguments : List String} {block : ThreadBlock}
    (haloof : engine.Aloof) (hboot : m.boot ≠ .notBooted) (hloader : m.loader = .empty)
    (hpath : m.classPath = finder) (hblock : m.thread? thread = some block)
    (hfree : ∀ name ∈ CoreName.initialized, ∀ other ∈ CoreName.claimed,
      ¬ Relation.TransGen finder.Super name other)
    (h : (bootSequence thread arguments).exec engine fuel m = (.ok (.ok ()), m')) :
    finder.Complete := by
  obtain ⟨hfaithful, hsupers, hfound, hdeclared⟩ := classes_of_bootSequence haloof hloader hpath h
  obtain ⟨found, utf8, setup, last, hevolves, hprepared, hfurnished, -⟩ :=
    bootSequence_ok (fun call => (haloof call).restrained) hboot hloader hblock h
  -- apart from the claimed classes nothing is busy in the end, as nothing was in the beginning
  have hidle : ∀ other ∉ CoreName.claimed, m'.Idle other := by
    intro other hother
    have htouched : Aspect.state other ∉
        Aspect.ofFoundation ++ (Aspect.ofLibrary ++ [.delegate]) := by
      simp only [CoreName.claimed, List.mem_cons, List.not_mem_nil, or_false, not_or] at hother
      simp [Aspect.ofFoundation, Aspect.ofLibrary, Aspect.ofCapture, hother]
    exact hevolves.idle htouched (Machine.idle_of_empty (congrArg Loader.table hloader) other)
  obtain ⟨system, hsystem, hsetup⟩ := hfurnished.setup
  -- what was found in the table was found on the class path
  exact {
    loads := fun name hname => by
      obtain ⟨type, hfind⟩ := hfound name hname
      obtain ⟨c, hget, -⟩ := ClassTable.get?_of_find? hfind
      obtain ⟨d, hd, -⟩ := hfaithful.settled.exists_loaded? hfind hget
      exact ⟨d, hd⟩
    supersLoad := fun name hname => by
      have hplain : name ∉ CoreName.claimed := by
        revert name
        decide
      exact supersLoad_of_initialized hfaithful hsupers hidle (hfree name hname) hplain
        (initialized_of_prepared hprepared hfurnished name hname)
    systemGroup := (hfaithful.settled.declares_iff hprepared.founded.groupType _ _).mpr
      ⟨_, hprepared.newSystemGroup⟩
    mainGroup := (hfaithful.settled.declares_iff hprepared.founded.groupType _ _).mpr
      ⟨_, hprepared.newMainGroup⟩
    mainThread := (hfaithful.settled.declares_iff hprepared.founded.threadType _ _).mpr
      ⟨_, hprepared.newThread⟩
    setup := (hfaithful.settled.declares_iff hsystem _ _).mpr ⟨_, hsetup⟩
    overrides := fun entry hmem method hmethod => by
      obtain ⟨type, hfind, hmethods⟩ := hdeclared entry hmem
      exact (hfaithful.settled.declares_iff hfind _ _).mpr (hmethods method hmethod) }

end ClassHost
