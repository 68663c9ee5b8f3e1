import ClassHost.Proofs.Loader.Marked
import ClassHost.Proofs.Machine.HandsOffEngine

/-!
# Initialising a whole chain of super classes

A class that is to be initialised has its super class initialised first, and so on, as long as the
next class is loaded and no more. `SuperChain` says which classes that are, from the class path and
the loader alone: what is loaded for the next class, and what stops there. A class that names no
super class is the last of its chain.

The attempts on these classes are nested, the last class innermost, and so they end from there on.
`Unwinds` says how: all initialisers run and succeed, or one fails and all classes further out are
given back, or none is run since the last name did not load. One class more on top of a chain
changes nothing about this (`Unwinds.cons_of_own`, `Unwinds.cons_of_error`).

When the turn of a class has come, the classes further out are being initialised and all else is as
the loader has it (`Reached`). This goes from a class to its super class, since loads do not look at
states, and `unwinds_of_superChain` is the induction that carries it down the chain.
`superChain_unwinds` is what it says about a whole call.
-/

namespace ClassHost

open Procedure

variable {σ : Type} {engine : Engine σ} {fuel : Nat} {m m' middle : Machine σ} {thread : ThreadId}
  {type id : ClassId} {table table' table'' : ClassTable} {classPath : Finder}
  {seen chain : List ClassId} {loader last : Loader} {ending r : Except Throwable Unit}
  {told told' : List Answer}

-- ---------------------------------------------------------------------------
-- Chains
-- ---------------------------------------------------------------------------

/-- The chain of super classes to initialise, from a class on: what comes of it when the next name
is loaded, one after the other, and the loader in the end. `seen` are classes that a name may lead
back to. -/
inductive SuperChain (classPath : Finder) : List ClassId → ClassId → Loader →
    List ClassId → Except Throwable Unit → Loader → Prop where
  /-- The class names no super class. -/
  | root {seen : List ClassId} {type : ClassId} {loader : Loader}
      (hsuper : (loader.table.get? type).bind LoadedClass.superName? = none) :
      SuperChain classPath seen type loader [type] (.ok ()) loader
  /-- The super class is not to be found. -/
  | missing {seen : List ClassId} {type : ClassId} {loader last : Loader} {superName : String}
      (hsuper : (loader.table.get? type).bind LoadedClass.superName? = some superName)
      (hload : Loader.load classPath superName loader = (.ok none, last)) :
      SuperChain classPath seen type loader [type]
        (.error (.internal (.superClassNotFound superName (loader.table.nameOf type)))) last
  /-- The super class cannot be loaded. -/
  | refused {seen : List ClassId} {type : ClassId} {loader last : Loader} {superName : String}
      {error : Throwable}
      (hsuper : (loader.table.get? type).bind LoadedClass.superName? = some superName)
      (hload : Loader.load classPath superName loader = (.error error, last)) :
      SuperChain classPath seen type loader [type] (.error error) last
  /-- The super class is in the chain already, an array class, or initialised or about to be. -/
  | stopped {seen : List ClassId} {type next : ClassId} {loader last : Loader} {superName : String}
      {d : LoadedClass}
      (hsuper : (loader.table.get? type).bind LoadedClass.superName? = some superName)
      (hload : Loader.load classPath superName loader = (.ok (some next), last))
      (hget : last.table.get? next = some d)
      (hstop : next ∈ type :: seen ∨ d.isArray = true ∨ d.state = .beingInitialized ∨
        d.state = .fullyInitialized) :
      SuperChain classPath seen type loader [type] (.ok ()) last
  /-- The super class is a loaded instance class, and it goes on from there. -/
  | super {seen chain : List ClassId} {type next : ClassId} {loader between last : Loader}
      {superName : String} {d : LoadedClass} {ending : Except Throwable Unit}
      (hsuper : (loader.table.get? type).bind LoadedClass.superName? = some superName)
      (hload : Loader.load classPath superName loader = (.ok (some next), between))
      (hget : between.table.get? next = some d) (hloaded : d.state = .loaded)
      (hinstance : d.isArray = false) (hnew : next ∉ type :: seen)
      (h : SuperChain classPath (type :: seen) next between chain ending last) :
      SuperChain classPath seen type loader (type :: chain) ending last

/-- No class is in a chain that was met before. -/
theorem SuperChain.not_mem (h : SuperChain classPath seen type loader chain ending last)
    (hnew : type ∉ seen) (hid : id ∈ chain) : id ∉ seen := by
  induction h with
  | root _ | missing _ _ | refused _ _ | stopped _ _ _ _ =>
    obtain rfl := List.mem_singleton.mp hid
    exact hnew
  | super _ _ _ _ _ hnext _ ih =>
    rcases List.mem_cons.mp hid with rfl | hid
    · exact hnew
    · exact fun hseen => ih hnext hid (List.mem_cons_of_mem _ hseen)

/-- Each class is in its chain once. -/
theorem SuperChain.nodup (h : SuperChain classPath seen type loader chain ending last) :
    chain.Nodup := by
  induction h with
  | root _ | missing _ _ | refused _ _ | stopped _ _ _ _ => exact List.nodup_singleton _
  | super _ _ _ _ _ hnew h ih =>
    exact List.nodup_cons.mpr ⟨fun hmem => h.not_mem hnew hmem List.mem_cons_self, ih⟩

/-- The classes of before are there in the end. -/
theorem SuperChain.get?_of_some {c : LoadedClass}
    (h : SuperChain classPath seen type loader chain ending last)
    (hget : loader.table.get? id = some c) : last.table.get? id = some c := by
  induction h with
  | root _ => exact hget
  | missing _ hload | refused _ hload | stopped _ hload _ _ => exact Loader.get?_of_load hload hget
  | super _ hload _ _ _ _ _ ih => exact ih (Loader.get?_of_load hload hget)

-- ---------------------------------------------------------------------------
-- What becomes of a chain
-- ---------------------------------------------------------------------------

/-- The engine did not fail. -/
def Answer.Succeeded (answer : Answer) : Prop := ∃ value, answer.result = .ok value

/-- The calls that run the initialisers of classes, for those of them that declare one first among
the methods of its key, on a thread and without arguments. -/
def initializersOf (table : ClassTable) (thread : ThreadId) (types : List ClassId) : List Call :=
  types.filterMap fun type =>
    (table.method? .static type initializerKey).map fun method => ⟨thread, method, []⟩

/-- What becomes of a chain, by how it ends: what the engine is called for and answers, in this
order, what is returned, and the states in the end. -/
inductive Unwinds (thread : ThreadId) (table : ClassTable) (chain : List ClassId) :
    Except Throwable Unit → List Answer → Except Throwable Unit → ClassTable → Prop where
  /-- The last name does not load: nothing is invoked, and every class is given back. -/
  | broken {error : Throwable} {after : ClassTable}
      (hstates : ∀ id ∈ chain, after.stateOf id = .loaded) :
      Unwinds thread table chain (.error error) [] (.error error) after
  /-- All initialisers succeed, from the last class of the chain on, and every class is initialised. -/
  | succeeded {told : List Answer} {after : ClassTable}
      (hcalls : told.map Answer.call = initializersOf table thread chain.reverse)
      (hanswers : ∀ answer ∈ told, answer.Succeeded)
      (hstates : ∀ id ∈ chain, after.stateOf id = .fullyInitialized) :
      Unwinds thread table chain (.ok ()) told (.ok ()) after
  /-- The initialiser of one class is the first to fail. The classes behind it in the chain are
  initialised; this class and those before it are given back. -/
  | failed {above below : List ClassId} {broke : ClassId} {method : MethodRef} {told : List Answer}
      {error : Throwable} {after : ClassTable} (hchain : chain = above ++ broke :: below)
      (hmethod : table.method? .static broke initializerKey = some method)
      (hcalls : told.map Answer.call = initializersOf table thread below.reverse)
      (hanswers : ∀ answer ∈ told, answer.Succeeded)
      (hbelow : ∀ id ∈ below, after.stateOf id = .fullyInitialized)
      (habove : ∀ id ∈ above ++ [broke], after.stateOf id = .loaded) :
      Unwinds thread table chain (.ok ()) (told ++ [⟨⟨thread, method, []⟩, .error error⟩])
        (.error error) after

/-- Before there is any class, there is nothing to unwind. -/
theorem unwinds_nil (thread : ThreadId) (table : ClassTable) (ending : Except Throwable Unit)
    (after : ClassTable) : Unwinds thread table [] ending [] ending after := by
  cases ending with
  | error error => exact .broken fun _ hid => absurd hid List.not_mem_nil
  | ok _ =>
    exact .succeeded rfl (fun _ hanswer => absurd hanswer List.not_mem_nil)
      fun _ hid => absurd hid List.not_mem_nil

-- ---------------------------------------------------------------------------
-- Tables with the same classes
-- ---------------------------------------------------------------------------

/-- Each place holds a class of the same kind, or none. -/
def ClassTable.SameKinds (table table' : ClassTable) : Prop :=
  ∀ id, (table'.get? id).map LoadedClass.kind = (table.get? id).map LoadedClass.kind

namespace ClassTable.SameKinds

theorem refl (table : ClassTable) : table.SameKinds table := fun _ => rfl

theorem trans (h : table.SameKinds table') (h' : table'.SameKinds table'') :
    table.SameKinds table'' :=
  fun id => (h' id).trans (h id)

theorem setState (table : ClassTable) (type : ClassId) (state : ClassState) :
    table.SameKinds (table.setState type state) := by
  intro id
  rw [ClassTable.setState, get?_modify]
  split
  · rw [Option.map_map]
    rfl
  · rfl

theorem mark (table : ClassTable) (ids : List ClassId) : table.SameKinds (table.mark ids) := by
  induction ids with
  | nil => exact refl table
  | cons id ids ih => exact ih.trans (setState _ _ _)

theorem exists_get? (h : table.SameKinds table') {c : LoadedClass} (hget : table.get? id = some c) :
    ∃ c', table'.get? id = some c' := by
  have hkind := h id
  rw [hget] at hkind
  obtain ⟨c', hget', -⟩ := Option.map_eq_some_iff.mp hkind
  exact ⟨c', hget'⟩

/-- Methods go with kinds. -/
theorem method? (h : table.SameKinds table') (kind : MethodKind) (id : ClassId) (key : MethodKey) :
    table'.method? kind id key = table.method? kind id key := by
  have hmethod : ∀ table : ClassTable, table.method? kind id key =
      ((table.get? id).map LoadedClass.kind).bind fun form =>
        ((LoadedClass.ofKind "" form).methodFlags? key).bind fun flags =>
          if kind.accepts flags then some ⟨id, key, flags⟩ else none := by
    intro table
    rw [ClassTable.method?]
    cases table.get? id with
    | none => rfl
    | some c => rfl
  rw [hmethod, hmethod, h id]

end ClassTable.SameKinds

-- ---------------------------------------------------------------------------
-- One class more
-- ---------------------------------------------------------------------------

namespace ClassTable

variable {c : LoadedClass} {state other : ClassState}

theorem stateOf_setState_cons (hget : table.get? type = some c)
    (h : ∀ id ∈ chain, table.stateOf id = state) :
    ∀ id ∈ type :: chain, (table.setState type state).stateOf id = state := by
  intro id hid
  by_cases hsame : type = id
  · exact hsame ▸ stateOf_setState_self hget
  · rw [stateOf_setState_of_ne hsame]
    exact h id ((List.mem_cons.mp hid).resolve_left (Ne.symm hsame))

theorem stateOf_setState_of_not_mem (hnew : type ∉ chain)
    (h : ∀ id ∈ chain, table.stateOf id = state) :
    ∀ id ∈ chain, (table.setState type other).stateOf id = state := by
  intro id hid
  have hne : type ≠ id := by
    rintro rfl
    exact hnew hid
  rw [stateOf_setState_of_ne hne]
  exact h id hid

end ClassTable

theorem initializersOf_reverse_cons (table : ClassTable) (thread : ThreadId) (type : ClassId)
    (chain : List ClassId) :
    initializersOf table thread (type :: chain).reverse =
      initializersOf table thread chain.reverse ++
        ((table.method? .static type initializerKey).map fun method => ⟨thread, method, []⟩).toList := by
  rw [List.reverse_cons, initializersOf, List.filterMap_append]
  cases hmethod : table.method? .static type initializerKey <;> simp [initializersOf, hmethod]

namespace Unwinds

variable {after : ClassTable} {c : LoadedClass} {error : Throwable}

/-- A class whose super class failed is given back like those it failed for. -/
theorem cons_of_error (h : Unwinds thread table chain ending told (.error error) after)
    (hnew : type ∉ chain) (hget : after.get? type = some c) :
    Unwinds thread table (type :: chain) ending told (.error error)
      (after.setState type .loaded) := by
  cases h with
  | broken hstates => exact .broken (ClassTable.stateOf_setState_cons hget hstates)
  | @failed above below broke method _ _ _ hchain hmethod hcalls hanswers hbelow habove =>
    -- whoever failed stays the same, with one more class above it
    have hout : type ∉ below := by
      intro hmem
      exact hnew (hchain ▸ List.mem_append_right _ (List.mem_cons_of_mem _ hmem))
    have houter : type :: chain = (type :: above) ++ broke :: below := congrArg (type :: ·) hchain
    refine .failed houter hmethod hcalls hanswers
      (ClassTable.stateOf_setState_of_not_mem hout hbelow) ?_
    exact ClassTable.stateOf_setState_cons hget habove

/-- After its super class, the initialiser of a class decides what becomes of it. -/
theorem cons_of_own (h : Unwinds thread table chain ending told (.ok ()) middle.table)
    (hkinds : table.SameKinds middle.table) (hnew : type ∉ chain)
    (hget : middle.table.get? type = some c) (hown : RunsOwn thread type middle told' r m') :
    Unwinds thread table (type :: chain) ending (told ++ told') r (m'.finish type r.isOk).table := by
  have htable : (m'.finish type r.isOk).table =
      middle.table.setState type (if r.isOk then .fullyInitialized else .loaded) := by
    rw [← hown.table]
    rfl
  rw [htable]
  -- the own initialiser has had its turn, so all before it have succeeded
  cases h with
  | succeeded hcalls hanswers hstates =>
    have hmethods := hkinds.method? .static type initializerKey
    cases hown with
    | none hmethod =>
      rw [hmethods] at hmethod
      rw [List.append_nil]
      refine .succeeded ?_ hanswers (ClassTable.stateOf_setState_cons hget hstates)
      rw [initializersOf_reverse_cons, hmethod, hcalls]
      exact (List.append_nil _).symm
    | @returned method value _ _ hmethod =>
      rw [hmethods] at hmethod
      refine .succeeded ?_ ?_ (ClassTable.stateOf_setState_cons hget hstates)
      · rw [initializersOf_reverse_cons, hmethod, List.map_append, hcalls]
        rfl
      · -- the own answer is the last one
        intro answer hanswer
        rcases List.mem_append.mp hanswer with hanswer | hanswer
        · exact hanswers answer hanswer
        · obtain rfl := List.mem_singleton.mp hanswer
          exact ⟨value, rfl⟩
    | failed hmethod =>
      rw [hmethods] at hmethod
      -- the first failure is the own one, and nobody below it has failed
      have hchain : type :: chain = [] ++ type :: chain := rfl
      refine .failed hchain hmethod hcalls hanswers
        (ClassTable.stateOf_setState_of_not_mem hnew hstates) ?_
      exact ClassTable.stateOf_setState_cons hget fun _ hid => absurd hid List.not_mem_nil

end Unwinds

namespace Machine

/-- **One class more.** If the chain behind a class unwinds, then so does the chain from that class
on. -/
theorem unwinds_level {c : LoadedClass} (hengine : engine.HandsOff)
    (hloaded : m.table.stateOf type = .loaded)
    (hinstance : ((m.table.get? type).map LoadedClass.isArray).getD false = false)
    (hsuper : (initializeSuper thread type).exec engine (fuel + 3) (m.begin type) = (.ok r, middle))
    (hunwinds : Unwinds thread table chain ending
      (answers (traceAll engine (fuel + 3)
        ((initializeSuper thread type).asked engine (fuel + 3) (m.begin type)))) r middle.table)
    (hkinds : table.SameKinds middle.table) (hget : table.get? type = some c)
    (hnew : type ∉ chain) :
    ∃ r m', perform engine (fuel + 4) (.request (.initClass thread type)) m = (.ok r, m') ∧
      Unwinds thread table (type :: chain) ending
        (answers (traceOf engine (fuel + 4) (.request (.initClass thread type)) m)) r m'.table ∧
      table.SameKinds m'.table := by
  obtain ⟨c', hget'⟩ := hkinds.exists_get? hget
  -- a failure above is passed on without a call, and otherwise it is up to the own initialiser
  cases r with
  | error error =>
    obtain ⟨hrun, hanswers⟩ := perform_initClass_of_error hloaded hinstance hsuper
    refine ⟨_, _, hrun, ?_, hkinds.trans (.setState _ _ _)⟩
    rw [hanswers]
    exact hunwinds.cons_of_error hnew hget'
  | ok _ =>
    obtain ⟨told, r, last, hown, hrun, hanswers⟩ :=
      perform_initClass_of_ok hloaded hinstance hengine hsuper
    refine ⟨r, _, hrun, ?_, ?_⟩
    · rw [hanswers]
      exact hunwinds.cons_of_own hkinds hnew hget' hown
    · have hlast : table.SameKinds last.table := hown.table ▸ hkinds
      exact hlast.trans (.setState _ _ _)

/-- A class where a chain stops is dealt with at once. -/
theorem perform_initClass_of_stop {c : LoadedClass} (engine : Engine σ) (fuel : Nat)
    (thread : ThreadId) (hget : m.table.get? type = some c) (hpresent : c.state ≠ .notLoaded)
    (hstop : c.isArray = true ∨ c.state = .beingInitialized ∨ c.state = .fullyInitialized) :
    ∃ m', perform engine (fuel + 2) (.request (.initClass thread type)) m = (.ok (.ok ()), m') ∧
      answers (traceOf engine (fuel + 2) (.request (.initClass thread type)) m) = [] ∧
      m.table.SameKinds m'.table := by
  have hstate := ClassTable.stateOf_of_get? hget
  have hinner : answers (traceOf engine (fuel + 2) (.request (.initClass thread type)) m) =
      answers (traceAll engine (fuel + 1)
        ((initialization thread type).asked engine (fuel + 1) m)) :=
    answers_traceOf_succ fun call hcall => by cases hcall
  rw [hinner]
  -- an array is marked and no more; other classes that stop a chain are claimed already
  by_cases hloaded : m.table.stateOf type = .loaded
  · have harray : ((m.table.get? type).map LoadedClass.isArray).getD false = true := by
      rw [hget]
      rcases hstop with harray | hbusy | hdone
      · exact harray
      · exact nomatch hbusy.symm.trans (hstate.symm.trans hloaded)
      · exact nomatch hdone.symm.trans (hstate.symm.trans hloaded)
    refine ⟨_, Procedure.exec_initialization_of_array hloaded harray, ?_, .setState _ _ _⟩
    rw [asked_initialization_of_array hloaded harray]
    simp
  · have hclaimed : m.Claimed type := claimed_of_ne (hstate ▸ hpresent) hloaded
    refine ⟨m, Procedure.exec_initialization_of_claimed hclaimed, ?_, .refl _⟩
    rw [asked_initialization_of_ne hloaded]
    simp

end Machine

-- ---------------------------------------------------------------------------
-- The whole chain
-- ---------------------------------------------------------------------------

theorem ClassTable.SameKinds.of_marked {ids : List ClassId} (h : m.loader = loader.mark ids) :
    loader.table.SameKinds m.table := by
  show loader.table.SameKinds m.loader.table
  rw [h]
  exact .mark loader.table ids

/-- The turn of a class has come: it can be initialised, and the classes further out are being
initialised. -/
structure Reached (classPath : Finder) (seen : List ClassId) (type : ClassId) (loader : Loader)
    (m : Machine σ) : Prop where
  path : m.classPath = classPath
  marked : m.loader = loader.mark seen
  holds : loader.Holds seen
  present : ∀ id c, loader.table.get? id = some c → c.state ≠ .notLoaded
  ready : ∃ c, loader.table.get? type = some c ∧ c.state = .loaded ∧ c.isArray = false
  new : type ∉ seen

namespace Reached

variable {superName : String} {result : Except Throwable (Option ClassId)} {next : ClassId}
  {d : LoadedClass}

theorem get? (h : Reached classPath seen type loader m) :
    m.table.get? type = loader.table.get? type := by
  show m.loader.table.get? type = loader.table.get? type
  rw [h.marked]
  exact ClassTable.get?_mark_of_not_mem h.new

theorem stateOf (h : Reached classPath seen type loader m) : m.table.stateOf type = .loaded := by
  obtain ⟨c, hget, hloaded, -⟩ := h.ready
  exact (ClassTable.stateOf_of_get? (h.get?.trans hget)).trans hloaded

theorem isArray (h : Reached classPath seen type loader m) :
    ((m.table.get? type).map LoadedClass.isArray).getD false = false := by
  obtain ⟨c, hget, -, hinstance⟩ := h.ready
  rw [h.get?, hget]
  exact hinstance

theorem loader_begin (h : Reached classPath seen type loader m) :
    (m.begin type).loader = loader.mark (type :: seen) := by
  show { m.loader with table := m.loader.table.setState type .beingInitialized } = _
  rw [h.marked]
  rfl

theorem holds_begin (h : Reached classPath seen type loader m) : loader.Holds (type :: seen) := by
  obtain ⟨c, hget, -⟩ := h.ready
  intro id hid
  rcases List.mem_cons.mp hid with rfl | hid
  · exact ClassTable.index_lt_of_get? hget
  · exact h.holds id hid

/-- An attempt does not change what its class is. -/
theorem get?_begin (h : Reached classPath seen type loader m) {c : LoadedClass}
    (hget : loader.table.get? type = some c) :
    (m.begin type).table.get? type = some { c with state := .beingInitialized } :=
  ClassTable.get?_setState_self (h.get?.trans hget)

theorem superName_begin (h : Reached classPath seen type loader m) :
    ((m.begin type).table.get? type).bind LoadedClass.superName? =
      (loader.table.get? type).bind LoadedClass.superName? := by
  obtain ⟨c, hget, -⟩ := h.ready
  rw [h.get?_begin hget, hget]
  rfl

theorem className_begin (h : Reached classPath seen type loader m) :
    (m.begin type).className type = loader.table.nameOf type := by
  obtain ⟨c, hget, -⟩ := h.ready
  exact (ClassTable.nameOf_of_get? (h.get?_begin hget)).trans (ClassTable.nameOf_of_get? hget).symm

/-- The super class is loaded as if no class were being initialised. -/
theorem load_begin (h : Reached classPath seen type loader m)
    (hload : Loader.load classPath superName loader = (result, last)) :
    ∃ middle, Machine.load superName (m.begin type) = (result, middle) ∧
      middle.classPath = classPath ∧ middle.loader = last.mark (type :: seen) := by
  have hmarked : Loader.load (m.begin type).classPath superName (m.begin type).loader =
      (result, last.mark (type :: seen)) := by
    have hpath : (m.begin type).classPath = classPath := h.path
    rw [h.loader_begin, hpath, Loader.load_mark classPath superName h.holds_begin, hload]
  have hresult : (Machine.load superName (m.begin type)).1 = result := congrArg Prod.fst hmarked
  exact ⟨_, Prod.ext hresult rfl, h.path, congrArg Prod.snd hmarked⟩

/-- What becomes of the super class, by what is loaded for it. -/
theorem exec_super (engine : Engine σ) (fuel : Nat) (thread : ThreadId)
    (h : Reached classPath seen type loader m)
    (hsuper : (loader.table.get? type).bind LoadedClass.superName? = some superName)
    (hload : Loader.load classPath superName loader = (result, last)) :
    ∃ middle, middle.classPath = classPath ∧ middle.loader = last.mark (type :: seen) ∧
      (initializeSuper thread type).exec engine (fuel + 1) (m.begin type) =
        (match result with
        | .error error => (.ok (.error error), middle)
        | .ok none =>
          (.ok (.error (.internal (.superClassNotFound superName (loader.table.nameOf type)))), middle)
        | .ok (some next) =>
          Machine.perform engine (fuel + 1) (.request (.initClass thread next)) middle) ∧
      answers (Machine.traceAll engine (fuel + 1)
          ((initializeSuper thread type).asked engine (fuel + 1) (m.begin type))) =
        (match result with
        | .ok (some next) =>
          answers (Machine.traceOf engine (fuel + 1) (.request (.initClass thread next)) middle)
        | _ => []) := by
  -- loading does not look at marks, so it gives what it gives without them
  obtain ⟨middle, hrun, hpath, hmarked⟩ := h.load_begin hload
  have hname := h.superName_begin.trans hsuper
  refine ⟨middle, hpath, hmarked, ?_, ?_⟩
  · rw [exec_initializeSuper hname, hrun, h.className_begin]
    rcases result with error | _ | next <;> rfl
  · rw [asked_initializeSuper hname, hrun]
    rcases result with error | _ | next <;> simp

/-- A class is still there after its super class was loaded. -/
theorem get?_load (h : Reached classPath seen type loader m)
    (hload : Loader.load classPath superName loader = (result, last)) :
    ∃ c, last.table.get? type = some c := by
  obtain ⟨c, hget, -⟩ := h.ready
  exact ⟨c, Loader.get?_of_load hload hget⟩

/-- The chain stops at the super class. -/
theorem stop (h : Reached classPath seen type loader m)
    (hload : Loader.load classPath superName loader = (.ok (some next), last))
    (hget : last.table.get? next = some d)
    (hstop : next ∈ type :: seen ∨ d.isArray = true ∨ d.state = .beingInitialized ∨
      d.state = .fullyInitialized)
    (hmarked : middle.loader = last.mark (type :: seen)) :
    ∃ d, middle.table.get? next = some d ∧ d.state ≠ .notLoaded ∧
      (d.isArray = true ∨ d.state = .beingInitialized ∨ d.state = .fullyInitialized) := by
  have htable : middle.table = last.table.mark (type :: seen) := congrArg Loader.table hmarked
  rw [htable]
  -- a class of the chain so far is marked, and any other one is as the load has left it
  by_cases hmem : next ∈ type :: seen
  · refine ⟨{ d with state := .beingInitialized }, ?_, nofun, .inr (.inl rfl)⟩
    rw [ClassTable.get?_mark_of_mem hmem, hget]
    rfl
  · have hbuilt := (Loader.spec_load classPath superName loader _ _ hload).grows.built
    refine ⟨d, ?_, hbuilt.present h.present hget, hstop.resolve_left hmem⟩
    rw [ClassTable.get?_mark_of_not_mem hmem, hget]

/-- The turn comes of the super class. -/
theorem super (h : Reached classPath seen type loader m)
    (hload : Loader.load classPath superName loader = (.ok (some next), last))
    (hget : last.table.get? next = some d) (hloaded : d.state = .loaded)
    (hinstance : d.isArray = false) (hnew : next ∉ type :: seen)
    (hpath : middle.classPath = classPath) (hmarked : middle.loader = last.mark (type :: seen)) :
    Reached classPath (type :: seen) next last middle where
  path := hpath
  marked := hmarked
  holds := by
    have hholds := (Loader.blind_load classPath superName loader h.holds_begin).2
    rwa [hload] at hholds
  present _ _ hget :=
    (Loader.spec_load classPath superName loader _ _ hload).grows.built.present h.present hget
  ready := ⟨d, hget, hloaded, hinstance⟩
  new := hnew

end Reached

/-- The last class of a chain, when what comes of its super class is known. -/
theorem unwinds_end (hengine : engine.HandsOff) (hreached : Reached classPath seen type loader m)
    (hsuper : (initializeSuper thread type).exec engine (fuel + 3) (m.begin type) =
      (.ok ending, middle))
    (hanswers : answers (Machine.traceAll engine (fuel + 3)
      ((initializeSuper thread type).asked engine (fuel + 3) (m.begin type))) = [])
    (hkinds : table.SameKinds middle.table) {c : LoadedClass} (hget : table.get? type = some c) :
    ∃ r m', Machine.perform engine (fuel + 4) (.request (.initClass thread type)) m = (.ok r, m') ∧
      Unwinds thread table [type] ending
        (answers (Machine.traceOf engine (fuel + 4) (.request (.initClass thread type)) m)) r
        m'.table ∧
      table.SameKinds m'.table := by
  refine Machine.unwinds_level hengine hreached.stateOf hreached.isArray hsuper ?_ hkinds hget
    List.not_mem_nil
  rw [hanswers]
  exact unwinds_nil thread table ending middle.table

/-- **A chain unwinds.** The classes further out are being initialised when its turn comes. -/
theorem unwinds_of_superChain (fuel : Nat) (thread : ThreadId) (hengine : engine.HandsOff)
    (h : SuperChain classPath seen type loader chain ending last)
    (hreached : Reached classPath seen type loader m) :
    ∃ r m', Machine.perform engine (fuel + chain.length + 3) (.request (.initClass thread type)) m =
        (.ok r, m') ∧
      Unwinds thread last.table chain ending (answers (Machine.traceOf engine
        (fuel + chain.length + 3) (.request (.initClass thread type)) m)) r m'.table ∧
      last.table.SameKinds m'.table := by
  induction h generalizing m with
  | root hsuper =>
    -- no super class is named: the chain is the class itself
    have hname := hreached.superName_begin.trans hsuper
    obtain ⟨c, hget, -⟩ := hreached.ready
    refine unwinds_end hengine hreached (exec_initializeSuper_of_root hname) ?_
      (.of_marked hreached.loader_begin) hget
    rw [asked_initializeSuper_of_root hname]
    simp
  | missing hsuper hload | refused hsuper hload =>
    obtain ⟨c, hget⟩ := hreached.get?_load hload
    -- the super class is not to be had, so nothing is called
    obtain ⟨middle, -, hmarked, hrun, hanswers⟩ :=
      hreached.exec_super engine (fuel + 2) thread hsuper hload
    exact unwinds_end hengine hreached hrun hanswers (.of_marked hmarked) hget
  | stopped hsuper hload hnext hstop =>
    obtain ⟨c, hget⟩ := hreached.get?_load hload
    obtain ⟨middle, -, hmarked, hrun, hanswers⟩ :=
      hreached.exec_super engine (fuel + 2) thread hsuper hload
    -- the super class needs nothing any more, or is on its way further out
    obtain ⟨d, hnext', hpresent, hready⟩ := hreached.stop hload hnext hstop hmarked
    obtain ⟨after, hlast, hnone, hkinds⟩ :=
      Machine.perform_initClass_of_stop engine (fuel + 1) thread hnext' hpresent hready
    exact unwinds_end hengine hreached (hrun.trans hlast) (hanswers.trans hnone)
      ((ClassTable.SameKinds.of_marked hmarked).trans hkinds) hget
  | @super seen chain type next _ _ _ _ _ _ hsuper hload hnext hloaded hinstance hnew h ih =>
    obtain ⟨c, hget⟩ := hreached.get?_load hload
    -- the super class is attempted first; the marks of the chain so far are what it finds
    obtain ⟨middle, hpath, hmarked, hrun, hanswers⟩ :=
      hreached.exec_super engine (fuel + chain.length + 2) thread hsuper hload
    obtain ⟨r, after, hlast, hunwinds, hkinds⟩ :=
      ih (hreached.super hload hnext hloaded hinstance hnew hpath hmarked)
    -- then the level of the class itself, which is none of those above
    have hnodup := (SuperChain.super hsuper hload hnext hloaded hinstance hnew h).nodup
    exact Machine.unwinds_level hengine hreached.stateOf hreached.isArray (hrun.trans hlast)
      (hanswers ▸ hunwinds) hkinds (h.get?_of_some hget) (List.nodup_cons.mp hnodup).1

/-- **What becomes of a chain of super classes.** With an engine that does not touch the machine,
let a loaded instance class be initialised, where no class is left to load. Whatever the chain of
its super classes is, the call returns, given enough fuel for its nesting, and it ends in one of
three ways: the initialisers of all classes of the chain are run, from the last class on, and
succeed; the first one that fails ends it; or none is run since the last name did not load. -/
theorem superChain_unwinds (hengine : engine.HandsOff)
    (hpresent : ∀ id c, m.table.get? id = some c → c.state ≠ .notLoaded) {c : LoadedClass}
    (hget : m.table.get? type = some c) (hloaded : c.state = .loaded) (hinstance : c.isArray = false)
    (h : SuperChain m.classPath [] type m.loader chain ending last) (thread : ThreadId) :
    ∃ bound, ∀ fuel, bound ≤ fuel → ∃ r m',
      Machine.perform engine fuel (.request (.initClass thread type)) m = (.ok r, m') ∧
      Unwinds thread last.table chain ending
        (answers (Machine.traceOf engine fuel (.request (.initClass thread type)) m)) r m'.table := by
  have hreached : Reached m.classPath [] type m.loader m :=
    ⟨rfl, rfl, nofun, hpresent, ⟨c, hget, hloaded, hinstance⟩, nofun⟩
  refine ⟨chain.length + 3, fun fuel hfuel => ?_⟩
  obtain ⟨rest, rfl⟩ : ∃ rest, fuel = rest + chain.length + 3 :=
    ⟨fuel - (chain.length + 3), by omega⟩
  obtain ⟨r, m', hrun, hunwinds, -⟩ := unwinds_of_superChain rest thread hengine h hreached
  exact ⟨r, m', hrun, hunwinds⟩

/-- The chain of two classes that are each other's super class. -/
theorem exists_superChain_circleMachine : ∃ c last,
    circleMachine.table.get? ⟨0⟩ = some c ∧ c.state = .loaded ∧ c.isArray = false ∧
    SuperChain circlePath [] ⟨0⟩ circleMachine.loader [⟨0⟩, ⟨1⟩] (.ok ()) last := by
  have hfirst : (circleMachine.table.get? ⟨0⟩).any (fun c =>
      c.state = .loaded && !c.isArray && c.superName? = some "B") = true := by decide +kernel
  have hload : (Loader.load circlePath "B" circleMachine.loader).1 = .ok (some ⟨1⟩) := by
    decide +kernel
  have hsecond : ((Loader.load circlePath "B" circleMachine.loader).2.table.get? ⟨1⟩).any
      (fun c => c.state = .loaded && !c.isArray && c.superName? = some "A") = true := by
    decide +kernel
  have hagain : (Loader.load circlePath "A"
      (Loader.load circlePath "B" circleMachine.loader).2).1 = .ok (some ⟨0⟩) := by
    decide +kernel
  -- the classes that the two loads find, read off the table
  obtain ⟨c, hget, hc⟩ := (Option.any_eq_true _ _).mp hfirst
  obtain ⟨d, hnext, hd⟩ := (Option.any_eq_true _ _).mp hsecond
  simp only [Bool.and_eq_true, decide_eq_true_eq, Bool.not_eq_true'] at hc hd
  obtain ⟨⟨hloaded, hinstance⟩, hsuper⟩ := hc
  obtain ⟨⟨hloaded', hinstance'⟩, hsuper'⟩ := hd
  have hname : (circleMachine.table.get? ⟨0⟩).bind LoadedClass.superName? = some "B" :=
    (congrArg (·.bind LoadedClass.superName?) hget).trans hsuper
  have hname' : ((Loader.load circlePath "B" circleMachine.loader).2.table.get? ⟨1⟩).bind
      LoadedClass.superName? = some "A" :=
    (congrArg (·.bind LoadedClass.superName?) hnext).trans hsuper'
  have hstays := Loader.get?_of_load (Prod.ext hagain rfl)
    (Loader.get?_of_load (Prod.ext hload rfl) hget)
  -- the circle closes: the super class of `B` is `A`, which is on its way
  have hend := SuperChain.stopped hname' (Prod.ext hagain rfl) hstays
    (.inl (show (⟨0⟩ : ClassId) ∈ [⟨1⟩, ⟨0⟩] by decide))
  exact ⟨c, _, hget, hloaded, hinstance,
    .super hname (Prod.ext hload rfl) hnext hloaded' hinstance' (by decide) hend⟩

/-- The second of two classes that are each other's super class is the last of the chain. -/
theorem circleMachine_superChain_unwinds :
    (∀ id c, circleMachine.table.get? id = some c → c.state ≠ .notLoaded) ∧
    (∃ c, circleMachine.table.get? ⟨0⟩ = some c ∧ c.state = .loaded ∧ c.isArray = false) ∧
    ∃ last, SuperChain circlePath [] ⟨0⟩ circleMachine.loader [⟨0⟩, ⟨1⟩] (.ok ()) last ∧
      ∃ bound, ∀ fuel, bound ≤ fuel → ∃ r m',
        Machine.perform answeringEngine fuel (.request (.initClass ⟨7⟩ ⟨0⟩)) circleMachine =
          (.ok r, m') ∧
        Unwinds ⟨7⟩ last.table [⟨0⟩, ⟨1⟩] (.ok ()) (answers (Machine.traceOf answeringEngine fuel
          (.request (.initClass ⟨7⟩ ⟨0⟩)) circleMachine)) r m'.table := by
  have hpresent : ∀ id c, circleMachine.table.get? id = some c → c.state ≠ .notLoaded := by
    intro id c hget
    have hbuilt := (Loader.spec_load circlePath "A" .empty _ _ rfl).grows.built
    exact hbuilt.present (fun id c hold => by simp [Loader.empty] at hold) hget
  obtain ⟨c, last, hget, hloaded, hinstance, hchain⟩ := exists_superChain_circleMachine
  exact ⟨hpresent, ⟨c, hget, hloaded, hinstance⟩, last, hchain,
    superChain_unwinds handsOff_answeringEngine hpresent hget hloaded hinstance hchain ⟨7⟩⟩

end ClassHost
