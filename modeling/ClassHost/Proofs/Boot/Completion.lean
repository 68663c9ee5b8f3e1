import ClassHost.Proofs.Boot.Once
import ClassHost.Proofs.Boot.Requirements

/-!
# Starts that succeed

With an aloof engine, a class path that has all that a start requires is enough for the start to
succeed, so a start returns just where the class path is `Complete` (`boot_returns_iff`).

Apart from the class path, what can make a start fail is that something has been set before that can
be set only once, that strings are made before their class is known, or that a field is written in
something that is no instance. `Machine.Underway` says how far a start has got in this respect:
which of the things have been set that can be set once (`Slots`), which classes have been found, and
which objects are instances. There is one lemma for each step, from one such state to the next, and
`achieves_bind` puts them together.
-/

namespace ClassHost

open Procedure

/-- Which of the things have been set that can be set once. -/
structure Slots where
  /-- The class of strings. -/
  strings : Bool
  wellKnown : Bool
  charset : Bool
  /-- The peer of the thread that the start runs on. A thread that is not there can have none. -/
  peer : Bool
  deriving Repr, DecidableEq

variable {σ : Type} {engine : Engine σ} {m m' : Machine σ} {thread : ThreadId} {finder : Finder}
  {slots slots' : Slots} {found found' : List (String × ClassId)}
  {objects objects' : List ObjectId} {name : String} {type : ClassId} {object : ObjectId}

namespace Machine

/-- What is set on a machine, as far as this thread is concerned. -/
def filled (m : Machine σ) (thread : ThreadId) : Slots where
  strings := m.strings.stringClass.isSome
  wellKnown := m.wellKnown.isSome
  charset := m.charset.isSome
  peer := ((m.thread? thread).map fun block => block.peer.isSome).getD true

/-- The object is an instance of some class. -/
def IsPlain (m : Machine σ) (object : ObjectId) : Prop :=
  ∃ type fields, m.heap.get? object = some ⟨type, .plain fields⟩

/-- How far a start has got: these slots are set, these classes have been found, and these objects
are instances. -/
structure Underway (finder : Finder) (thread : ThreadId) (slots : Slots)
    (found : List (String × ClassId)) (objects : List ObjectId) (m : Machine σ) : Prop where
  faithful : m.Faithful finder
  delegateClass : m.delegateClass = none
  filled : m.filled thread = slots
  found : ∀ entry ∈ found, m.table.find? entry.1 = some entry.2
  plain : ∀ object ∈ objects, m.IsPlain object

namespace Underway

/-- What need not be known any more. -/
theorem mono (h : m.Underway finder thread slots found objects) (hfound : found' ⊆ found)
    (hobjects : objects' ⊆ objects) : m.Underway finder thread slots found' objects' where
  faithful := h.faithful
  delegateClass := h.delegateClass
  filled := h.filled
  found entry hmem := h.found entry (hfound hmem)
  plain object hmem := h.plain object (hobjects hmem)

theorem find (h : m.Underway finder thread slots found objects)
    (hfind : m.table.find? name = some type) :
    m.Underway finder thread slots ((name, type) :: found) objects where
  faithful := h.faithful
  delegateClass := h.delegateClass
  filled := h.filled
  found := List.forall_mem_cons.mpr ⟨hfind, h.found⟩
  plain := h.plain

/-- Changes of classes set no slot and leave objects alone. -/
theorem classes (h : m.Underway finder thread slots found objects) (honly : m.OnlyClasses m')
    (hkeeps : m.table.Keeps m'.table) (hfaithful : m'.Faithful finder) :
    m'.Underway finder thread slots found objects := by
  obtain ⟨loader, journal, memory, rfl⟩ := honly
  exact ⟨hfaithful, h.delegateClass, h.filled, fun entry hmem => hkeeps.find? (h.found entry hmem),
    h.plain⟩

/-- Other changes leave the classes alone. -/
theorem of_table_eq (h : m.Underway finder thread slots found objects)
    (hpath : m'.classPath = m.classPath) (htable : m'.table = m.table)
    (hdelegate : m'.delegateClass = m.delegateClass) (hfilled : m'.filled thread = slots')
    (hplain : ∀ object ∈ objects', m'.IsPlain object) :
    m'.Underway finder thread slots' found objects' where
  faithful := h.faithful.of_eq hpath htable
  delegateClass := hdelegate.trans h.delegateClass
  filled := hfilled
  found entry hmem := by
    rw [htable]
    exact h.found entry hmem
  plain := hplain

end Underway

end Machine

namespace Procedure

-- ---------------------------------------------------------------------------
-- Classes
-- ---------------------------------------------------------------------------

theorem achieves_loadRequired (hm : m.Underway finder thread slots found objects)
    (hloads : ∃ c, finder.loaded? name = some c) :
    (loadRequired name).Achieves engine m fun type m' =>
      m'.Underway finder thread slots ((name, type) :: found) objects := by
  obtain ⟨type, hload, hfind⟩ := hm.faithful.exists_load hloads
  have hlast : (Machine.load name m).2.Underway finder thread slots ((name, type) :: found)
      objects :=
    (hm.classes ⟨_, m.journal, m.memory, rfl⟩ (Machine.unmoved_load name m).keeps
      (hm.faithful.load name)).find hfind
  have hloaded : (load name).Achieves engine m fun result m' => result = some type ∧
      m'.Underway finder thread slots ((name, type) :: found) objects :=
    achieves_change hload ⟨rfl, hlast⟩ rfl
  refine achieves_bind (achieves_orFatal hloaded) ?_
  rintro _ last ⟨rfl, hlast⟩
  exact achieves_pure hlast

/-- An access that changes classes and moves none. -/
theorem achieves_classAccess {access : Access σ} (hm : m.Underway finder thread slots found objects)
    (hplain : access.Plain) (honly : m.OnlyClasses (access.apply m).2) :
    (Procedure.access access : Procedure σ Fatal access.Reply).Achieves engine m fun _ m' =>
      m'.Underway finder thread slots found objects := by
  have hadvances : Advances finder [] m (access.apply m).2 := advances_access hplain m
  exact achieves_access
    (hm.classes honly (access.touches m).table.keeps (hadvances.faithful hm.faithful))

theorem achieves_tag (hm : m.Underway finder thread slots found objects) (type : ClassId)
    (role : ClassRole) :
    (Procedure.access (.tag type role) : Procedure σ Fatal Bool).Achieves engine m fun _ m' =>
      m'.Underway finder thread slots found objects := by
  refine achieves_classAccess hm ?_ ⟨_, m.journal, m.memory, rfl⟩
  exact trivial

theorem achieves_tagAll (hm : m.Underway finder thread slots found objects) (role : ClassRole)
    (types : List ClassId) :
    (tagAll role types).Achieves engine m fun _ m' =>
      m'.Underway finder thread slots found objects := by
  induction types generalizing m with
  | nil => exact achieves_pure hm
  | cons type types ih => exact achieves_bind (achieves_tag hm type role) fun _ _ hm => ih hm

theorem achieves_setStatic (hm : m.Underway finder thread slots found objects) (type : ClassId)
    (key : FieldKey) (value : Value) :
    (Procedure.access (.setStatic type key value) : Procedure σ Fatal Unit).Achieves engine m
      fun _ m' => m'.Underway finder thread slots found objects := by
  refine achieves_classAccess hm ?_ ⟨_, m.journal, m.memory, rfl⟩
  exact trivial

theorem achieves_setState (hm : m.Underway finder thread slots found objects) (type : ClassId)
    {state : ClassState} (hstate : state ≠ .notLoaded) :
    (Procedure.access (.setState type state) : Procedure σ Fatal Unit).Achieves engine m
      fun _ m' => m'.Underway finder thread slots found objects :=
  achieves_access (hm.classes ⟨_, m.journal, m.memory, rfl⟩
    ((Access.setState type state).touches m).table.keeps (hm.faithful.setState hstate type))

-- ---------------------------------------------------------------------------
-- Objects and slots
-- ---------------------------------------------------------------------------

/-- A class whose name begins with no bracket has instances. -/
theorem achieves_newObject (hm : m.Underway finder thread slots found objects)
    (hmem : (name, type) ∈ found) (hplain : name.toList.head? ≠ some '[') (hne : name ≠ "") :
    (newObject type).Achieves engine m fun object m' =>
      m'.Underway finder thread slots found (object :: objects) := by
  obtain ⟨c, hget, -⟩ := ClassTable.get?_of_find? (hm.found _ hmem)
  obtain ⟨d, hd, hfile⟩ := hm.faithful.settled.exists_loaded? (hm.found _ hmem) hget
  -- a plain name belongs to a class of which objects can be made
  have harray : c.isArray = false :=
    (LoadedClass.isArray_of_file?_eq hfile).symm.trans (Finder.isArray_of_plain hd hplain hne)
  let made := m.heap.alloc ⟨type, .plain []⟩
  have hnew : Machine.newInstance type m = (.ok made.1, { m with heap := made.2 }) := by
    rw [Machine.newInstance, Machine.allocating_apply, Heap.newInstance, hget, Option.map_some,
      Option.getD_some, harray]
    rfl
  -- the new object is plain, and the older ones are still there
  refine achieves_observe_bind (achieves_orFatal (achieves_change hnew ?_ rfl))
  refine hm.of_table_eq rfl rfl rfl hm.filled (List.forall_mem_cons.mpr
    ⟨⟨type, [], Heap.get?_alloc_self _ _⟩, fun object hobject => ?_⟩)
  obtain ⟨type', fields, hold⟩ := hm.plain object hobject
  exact ⟨type', fields, Heap.get?_alloc_of_some hold⟩

theorem achieves_setObjectField (hm : m.Underway finder thread slots found objects)
    (hmem : object ∈ objects) (key : FieldKey) (value : Value) :
    (setObjectField object key value).Achieves engine m fun _ m' =>
      m'.Underway finder thread slots found objects := by
  obtain ⟨type, fields, hget⟩ := hm.plain object hmem
  let heap := m.heap.setBody object (.plain (storeField fields key value))
  have hset : Machine.setField object key value m = (.ok (), { m with heap }) := by
    rw [Machine.setField, Machine.writing_apply, Heap.setField, hget]
    rfl
  refine achieves_observe_bind (achieves_orFatal (achieves_change hset ?_ rfl))
  refine hm.of_table_eq rfl rfl rfl hm.filled fun other hother => ?_
  obtain ⟨type', fields', hold⟩ := hm.plain other hother
  -- the object that is written to stays plain, and the others stay what they are
  by_cases hsame : object = other
  · subst hsame
    refine ⟨type', storeField fields key value, ?_⟩
    change heap.get? object = _
    rw [Heap.get?_setBody, if_pos rfl, hold]
    rfl
  · refine ⟨type', fields', ?_⟩
    change heap.get? other = _
    rw [Heap.get?_setBody, if_neg hsame, hold]

/-- The class of strings can be set if it has not been. -/
theorem achieves_bindStrings (hm : m.Underway finder thread slots found objects)
    (hstrings : slots.strings = false) (type : ClassId) (blame : Throwable → Fatal) :
    (orFatal blame (bindStrings type)).Achieves engine m fun _ m' =>
      m'.Underway finder thread { slots with strings := true } found objects := by
  have hunset : m.strings.stringClass = none := by simpa [← hm.filled, Machine.filled] using hstrings
  have hbind : Machine.bindStrings type m =
      (.ok (), { m with strings := { m.strings with stringClass := some type } }) := by
    rw [Machine.bindStrings_apply, StringPool.bind, hunset]
  refine achieves_orFatal (achieves_change hbind ?_ rfl)
  refine hm.of_table_eq rfl rfl rfl ?_ hm.plain
  rw [← hm.filled]
  rfl

/-- Strings can be made once their class is known. -/
theorem achieves_internRequired (hm : m.Underway finder thread slots found objects)
    (hstrings : slots.strings = true) (text : String) :
    (internRequired text).Achieves engine m fun _ m' =>
      m'.Underway finder thread slots found objects := by
  obtain ⟨type, hset⟩ : ∃ type, m.strings.stringClass = some type := by
    rw [← hm.filled] at hstrings
    exact Option.isSome_iff_exists.mp hstrings
  -- with the pool bound, the string is found or made; either way nothing else happens
  cases hlookup : m.strings.strings.lookup (Text.units text) with
  | some id =>
    have hintern : Machine.intern text m = (.ok id, m) := by
      simp only [Machine.intern_apply, StringPool.intern, hset, hlookup]
    exact achieves_orFatal (achieves_change hintern hm rfl)
  | none =>
    let made := m.heap.newString type (Text.units text)
    let strings : StringPool := ⟨some type, (Text.units text, made.1) :: m.strings.strings⟩
    have hintern : Machine.intern text m = (.ok made.1, { m with strings, heap := made.2 }) := by
      simp only [Machine.intern_apply, StringPool.intern, hset, hlookup]
      rfl
    refine achieves_orFatal (achieves_change hintern ?_ rfl)
    refine hm.of_table_eq rfl rfl rfl ?_ fun object hobject => ?_
    · rw [← hm.filled, Machine.filled, Machine.filled, hset]
      rfl
    · obtain ⟨type', fields, hold⟩ := hm.plain object hobject
      exact ⟨type', fields, Heap.get?_alloc_of_some hold⟩

theorem achieves_capture (hm : m.Underway finder thread slots found objects)
    (hknown : slots.wellKnown = false) (known : WellKnown) :
    (upkeep (.capture known) : Procedure σ Fatal Bool).Achieves engine m fun captured m' =>
      captured = true ∧ m'.Underway finder thread { slots with wellKnown := true } found objects := by
  have hunset : m.wellKnown = none := by simpa [← hm.filled, Machine.filled] using hknown
  refine achieves_upkeep ?_
  rw [Upkeep.apply_capture, hunset]
  refine ⟨rfl, hm.of_table_eq rfl rfl rfl ?_ hm.plain⟩
  rw [← hm.filled]
  rfl

theorem achieves_setCharset (hm : m.Underway finder thread slots found objects)
    (hcharset : slots.charset = false) (charset : ObjectId) :
    (upkeep (.setCharset charset) : Procedure σ Fatal Bool).Achieves engine m fun set m' =>
      set = true ∧ m'.Underway finder thread { slots with charset := true } found objects := by
  have hunset : m.charset = none := by simpa [← hm.filled, Machine.filled] using hcharset
  refine achieves_upkeep ?_
  rw [Upkeep.apply_setCharset, hunset]
  refine ⟨rfl, hm.of_table_eq rfl rfl rfl ?_ hm.plain⟩
  rw [← hm.filled]
  rfl

/-- A thread without a peer can be given one. -/
theorem achieves_attachPeer (hm : m.Underway finder thread slots found objects)
    (hpeer : slots.peer = false) (peer : ObjectId) (blame : Throwable → Fatal) :
    (orFatal blame (attachPeer thread peer)).Achieves engine m fun _ m' =>
      m'.Underway finder thread { slots with peer := true } found objects := by
  -- the thread is there and has no peer yet, so attaching one succeeds
  obtain ⟨block, hblock, hunset⟩ : ∃ block, m.thread? thread = some block ∧ block.peer = none := by
    rw [← hm.filled, Machine.filled] at hpeer
    cases hblock : m.thread? thread with
    | none => simp [hblock] at hpeer
    | some block => exact ⟨block, rfl, by simpa [hblock] using hpeer⟩
  let threads := m.threads.setIfInBounds thread.index { block with peer := some peer }
  have hattach : Machine.attachPeer thread peer m = (.ok (), { m with threads }) := by
    simp only [Machine.attachPeer_apply, hblock, ThreadBlock.attach, hunset]
    rfl
  refine achieves_orFatal (achieves_change hattach ?_ rfl)
  refine hm.of_table_eq rfl rfl rfl ?_ hm.plain
  have hlt : thread.index < m.threads.size := (Array.getElem?_eq_some_iff.mp hblock).1
  have hset : ({ m with threads } : Machine σ).thread? thread =
      some { block with peer := some peer } := Array.getElem?_setIfInBounds_self_of_lt hlt
  rw [← hm.filled, Machine.filled, Machine.filled, hset]
  rfl

-- ---------------------------------------------------------------------------
-- Methods
-- ---------------------------------------------------------------------------

/-- A method that the class path declares is found. -/
theorem achieves_declared (hm : m.Underway finder thread slots found objects)
    (hmem : (name, type) ∈ found) {kind : MethodKind} {key : MethodKey}
    (hdeclares : finder.Declares kind name key) :
    (declared kind type key).Achieves engine m fun method m' => method.key = key ∧
      m'.Underway finder thread slots found objects := by
  obtain ⟨method, hmethod⟩ :=
    (hm.faithful.settled.declares_iff (hm.found _ hmem) kind key).mp hdeclares
  refine achieves_observe_bind ?_
  rw [hmethod]
  exact achieves_pure ⟨(ClassTable.eq_of_method? hmethod).2, hm⟩

theorem achieves_checkDeclared (hm : m.Underway finder thread slots found objects)
    (hmem : (name, type) ∈ found) {methods : List (MethodKey × Override)}
    (hdeclares : ∀ method ∈ methods, finder.Declares .any name method.1) :
    (checkDeclared type methods).Achieves engine m fun _ m' =>
      m'.Underway finder thread slots found objects := by
  induction methods generalizing m with
  | nil => exact achieves_pure hm
  | cons method methods ih =>
    obtain ⟨hfirst, hrest⟩ := List.forall_mem_cons.mp hdeclares
    exact achieves_bind (achieves_declared hm hmem hfirst) fun _ _ hm => ih hm.2 hrest

theorem achieves_installModules (hm : m.Underway finder thread slots found objects)
    {modules : List OverrideModule}
    (hloads : ∀ entry ∈ modules, ∃ c, finder.loaded? entry.className = some c)
    (hdeclares : ∀ entry ∈ modules, ∀ method ∈ entry.methods,
      finder.Declares .any entry.className method.1) :
    (installModules modules).Achieves engine m fun _ m' =>
      m'.Underway finder thread slots found objects := by
  induction modules generalizing m found with
  | nil => exact achieves_pure hm
  | cons entry modules ih =>
    obtain ⟨hload, hloads⟩ := List.forall_mem_cons.mp hloads
    obtain ⟨hdeclare, hdeclares⟩ := List.forall_mem_cons.mp hdeclares
    -- by induction on the modules: the class, its methods, and then the module
    refine achieves_bind (achieves_loadRequired hm hload) fun type loaded hloaded => ?_
    refine achieves_bind (achieves_checkDeclared hloaded List.mem_cons_self hdeclare)
      fun _ checked hchecked => ?_
    have hinstall : (upkeep (.install entry) : Procedure σ Fatal Unit).Achieves engine checked
        fun _ m' => m'.Underway finder thread slots found objects :=
      achieves_upkeep ((hchecked.mono (List.subset_cons_self _ _) (List.Subset.refl _)).of_table_eq
        rfl rfl rfl hchecked.filled hchecked.plain)
    exact achieves_bind hinstall fun _ _ hm => ih hm hloads hdeclares

section Aloof

variable (haloof : engine.Aloof)

include haloof

theorem achieves_invokeRequired (hm : m.Underway finder thread slots found objects)
    {method : MethodRef} (hplain : method.key.Plain) (arguments : List Value) :
    (invokeRequired thread method arguments).Achieves engine m fun _ m' =>
      m'.Underway finder thread slots found objects := by
  refine achieves_observe_bind (achieves_bind
    (achieves_orFatal (achieves_invoke haloof hplain arguments m)) ?_)
  rintro _ _ ⟨_, _, rfl⟩
  exact achieves_pure (hm.of_table_eq rfl rfl rfl hm.filled hm.plain)

theorem achieves_callDeclared (hm : m.Underway finder thread slots found objects)
    (hmem : (name, type) ∈ found) {kind : MethodKind} {key : MethodKey}
    (hdeclares : finder.Declares kind name key) (hplain : key.Plain)
    {arguments : Procedure σ Fatal (List Value)}
    (hmake : ∀ {m : Machine σ}, m.Underway finder thread slots found objects →
      arguments.Achieves engine m fun _ m' => m'.Underway finder thread slots found objects) :
    (callDeclared thread kind type key arguments).Achieves engine m fun _ m' =>
      m'.Underway finder thread slots found objects := by
  refine achieves_bind (achieves_declared hm hmem hdeclares) fun method _ hdeclared => ?_
  refine achieves_bind (hmake hdeclared.2) fun values _ hm => ?_
  exact achieves_invokeRequired haloof hm (hdeclared.1 ▸ hplain) values

/-- A class is initialised if its super classes load. -/
theorem achieves_initialized (hm : m.Underway finder thread slots found objects)
    (hmem : (name, type) ∈ found) (hsupers : finder.SupersLoad [] name) :
    (initialized thread type).Achieves engine m fun _ m' =>
      m'.Underway finder thread slots found objects := by
  refine achieves_observe_bind (achieves_orFatal ?_)
  obtain ⟨fuel, _, last, hrun, honly⟩ :=
    achieves_initClass haloof hsupers hm.faithful (hm.found _ hmem) nofun
  have hadvances : Advances finder [] m last :=
    advances_initClass haloof fuel type ((exec_initClass thread type).symm.trans hrun)
  have hkeeps := keeps_exec engine fuel (initClass thread type) m
  rw [hrun] at hkeeps
  exact ⟨fuel, (), last, hrun, hm.classes honly hkeeps (hadvances.faithful hm.faithful)⟩

theorem achieves_require (hm : m.Underway finder thread slots found objects)
    (hsupers : finder.SupersLoad [] name) :
    (require thread name).Achieves engine m fun type m' =>
      m'.Underway finder thread slots ((name, type) :: found) objects := by
  refine achieves_bind
    (achieves_loadRequired hm (hsupers.loads.resolve_left List.not_mem_nil)) fun type _ hm => ?_
  exact achieves_bind (achieves_initialized haloof hm List.mem_cons_self hsupers) fun _ _ hm =>
    achieves_pure hm

-- ---------------------------------------------------------------------------
-- The parts of a start
-- ---------------------------------------------------------------------------

variable (hcomplete : finder.Complete)

include hcomplete

theorem achieves_findWellKnown (hm : m.Underway finder thread slots found objects)
    (hstrings : slots.strings = false) :
    (findWellKnown thread).Achieves engine m fun _ m' =>
      m'.Underway finder thread { slots with strings := true } [] [] := by
  have hsupers := hcomplete.supersLoad
  refine achieves_bind (achieves_require haloof hm (hsupers _ (by decide))) fun _ _ hm => ?_
  refine achieves_bind (achieves_require haloof hm (hsupers _ (by decide))) fun _ _ hm => ?_
  refine achieves_bind (achieves_require haloof hm (hsupers _ (by decide))) fun string _ hm => ?_
  refine achieves_bind (achieves_bindStrings hm hstrings string _) fun _ _ hm => ?_
  refine achieves_bind (achieves_require haloof hm (hsupers _ (by decide))) fun _ _ hm => ?_
  refine achieves_bind (achieves_require haloof hm (hsupers _ (by decide))) fun _ _ hm => ?_
  refine achieves_bind (achieves_require haloof hm (hsupers _ (by decide))) fun _ _ hm => ?_
  refine achieves_bind (achieves_require haloof hm (hsupers _ (by decide))) fun _ _ hm => ?_
  refine achieves_bind (achieves_require haloof hm (hsupers _ (by decide))) fun _ _ hm => ?_
  refine achieves_bind (achieves_require haloof hm (hsupers _ (by decide))) fun _ _ hm => ?_
  refine achieves_bind (achieves_require haloof hm (hsupers _ (by decide))) fun _ _ hm => ?_
  -- of all that was found, only the pool matters later
  exact achieves_pure (hm.mono (List.nil_subset _) (List.nil_subset _))

theorem achieves_captureWellKnown (hm : m.Underway finder thread slots found objects)
    (hstrings : slots.strings = false) (hknown : slots.wellKnown = false) :
    (captureWellKnown thread).Achieves engine m fun _ m' =>
      m'.Underway finder thread { slots with strings := true, wellKnown := true } [] [] := by
  refine achieves_bind (achieves_findWellKnown haloof hcomplete hm hstrings) fun known _ hm => ?_
  refine achieves_bind (achieves_tagAll hm _ _) fun _ _ hm => ?_
  refine achieves_bind (achieves_tagAll hm _ _) fun _ _ hm => ?_
  refine achieves_bind (achieves_setStatic hm _ _ _) fun _ _ hm => ?_
  refine achieves_bind (achieves_capture hm hknown known) ?_
  rintro _ _ ⟨rfl, hm⟩
  exact achieves_pure hm

end Aloof

theorem achieves_newPeer (hm : m.Underway finder thread slots found objects)
    (hmem : (CoreName.thread, type) ∈ found) (hpeer : slots.peer = false) :
    (newPeer thread type).Achieves engine m fun peer m' =>
      m'.Underway finder thread { slots with peer := true } found (peer :: objects) := by
  refine achieves_bind (achieves_newObject hm hmem (by decide) (by decide)) fun peer made hm => ?_
  refine achieves_observe_bind ?_
  refine achieves_bind (achieves_setObjectField hm List.mem_cons_self _ _) fun _ _ hm => ?_
  refine achieves_bind (achieves_setObjectField hm List.mem_cons_self _ _) fun _ _ hm => ?_
  refine achieves_bind (achieves_attachPeer hm hpeer peer _) fun _ _ hm => ?_
  exact achieves_pure hm

section Aloof

variable (haloof : engine.Aloof) (hcomplete : finder.Complete)

include haloof hcomplete

theorem achieves_newMainThread (hm : m.Underway finder thread slots found objects)
    (hpeer : slots.peer = false) :
    (newMainThread thread).Achieves engine m fun main m' =>
      m'.Underway finder thread { slots with peer := true }
        [(CoreName.threadGroup, main.groupType), (CoreName.thread, main.threadType)] [] := by
  have hsupers := hcomplete.supersLoad
  refine achieves_bind (achieves_require haloof hm (hsupers _ (by decide))) fun threadType _ hm => ?_
  refine achieves_bind (achieves_require haloof hm (hsupers _ (by decide))) fun groupType _ hm => ?_
  -- the thread's own object, the system group and its constructor, and the main group
  refine achieves_bind (achieves_newPeer hm (by simp) hpeer) fun peer _ hm => ?_
  have hgroup : (CoreName.threadGroup, groupType) ∈
      (CoreName.threadGroup, groupType) :: (CoreName.thread, threadType) :: found :=
    List.mem_cons_self
  refine achieves_bind (achieves_newObject hm hgroup (by decide) (by decide)) fun _ _ hm => ?_
  refine achieves_bind (achieves_callDeclared haloof hm hgroup hcomplete.systemGroup
    (.of_name (by decide)) fun hm => achieves_pure hm) fun _ _ hm => ?_
  refine achieves_bind (achieves_newObject hm hgroup (by decide) (by decide)) fun _ _ hm => ?_
  refine achieves_bind (achieves_setObjectField hm (by simp) _ _) fun _ _ hm => ?_
  exact achieves_pure (hm.mono (by simp) (List.nil_subset _))

theorem achieves_claimSystem (hm : m.Underway finder thread slots found objects) :
    (claimSystem thread).Achieves engine m fun system m' =>
      m'.Underway finder thread slots ((CoreName.system, system) :: found) objects := by
  have hsupers := hcomplete.supersLoad
  refine achieves_bind (achieves_loadRequired hm (hcomplete.loads _ (by decide)))
    fun system _ hm => ?_
  refine achieves_bind (achieves_tag hm _ _) fun _ _ hm => ?_
  refine achieves_bind (achieves_setState hm _ nofun) fun _ _ hm => ?_
  refine achieves_bind (achieves_require haloof hm (hsupers _ (by decide))) fun _ _ hm => ?_
  refine achieves_bind (achieves_require haloof hm (hsupers _ (by decide))) fun _ _ hm => ?_
  refine achieves_bind (achieves_require haloof hm (hsupers _ (by decide))) fun _ _ hm => ?_
  exact achieves_pure (hm.mono (List.subset_append_right [_, _, _] _) (List.Subset.refl _))

theorem achieves_layFoundation (hm : m.Underway finder thread slots found objects)
    (hstrings : slots.strings = false) (hknown : slots.wellKnown = false)
    (hpeer : slots.peer = false) :
    (layFoundation thread).Achieves engine m fun claimed m' =>
      m'.Underway finder thread
        { slots with strings := true, wellKnown := true, peer := true }
        [(CoreName.system, claimed.system)] [] := by
  -- steps 2 to 9; what each needs has been found by the ones before
  refine achieves_bind (achieves_captureWellKnown haloof hcomplete hm hstrings hknown)
    fun _ _ hm => ?_
  refine achieves_bind (achieves_newMainThread haloof hcomplete hm hpeer) fun main _ hm => ?_
  refine achieves_bind (achieves_claimSystem haloof hcomplete hm) fun system _ hm => ?_
  refine achieves_bind (achieves_callDeclared haloof hm (by simp) hcomplete.mainGroup
    (.of_name (by decide)) fun hm => achieves_bind (achieves_internRequired hm rfl _)
      fun _ _ hm => achieves_pure hm) fun _ _ hm => ?_
  refine achieves_bind (achieves_loadRequired hm (hcomplete.loads _ (by decide)))
    fun securityDebug _ hm => ?_
  refine achieves_bind (achieves_setState hm _ nofun) fun _ _ hm => ?_
  refine achieves_bind (achieves_callDeclared haloof hm (by simp) hcomplete.mainThread
    (.of_name (by decide)) fun hm => achieves_bind (achieves_internRequired hm rfl _)
      fun _ _ hm => achieves_pure hm) fun _ _ hm => ?_
  exact achieves_pure (hm.mono (by simp) (List.nil_subset _))

theorem achieves_applyOverrides (hm : m.Underway finder thread slots found objects)
    (hcharset : slots.charset = false) :
    (applyOverrides thread).Achieves engine m fun _ m' =>
      m'.Underway finder thread { slots with charset := true } found objects := by
  have hsupers := hcomplete.supersLoad
  refine achieves_bind (achieves_require haloof hm (hsupers _ (by decide))) fun charset _ hm => ?_
  refine achieves_bind (achieves_require haloof hm (hsupers _ (by decide))) fun utf8 _ hm => ?_
  have hutf8 : (CoreName.utf8, utf8) ∈
      (CoreName.utf8, utf8) :: (CoreName.charset, charset) :: found := List.mem_cons_self
  refine achieves_bind (achieves_newObject hm hutf8 (by decide) (by decide)) fun object _ hm => ?_
  refine achieves_bind (achieves_setStatic hm _ _ _) fun _ _ hm => ?_
  refine achieves_bind (achieves_setCharset hm hcharset object) ?_
  rintro _ _ ⟨rfl, hm⟩
  -- the classes that are overridden are among those required
  have hloads : ∀ entry ∈ OverrideModule.builtin, ∃ c, finder.loaded? entry.className = some c :=
    fun entry hmem => hcomplete.loads _ (by revert entry; decide)
  exact (achieves_installModules hm hloads hcomplete.overrides).mono fun _ _ hm =>
    hm.mono (List.subset_append_right [_, _] _) (List.subset_cons_self _ _)

theorem achieves_finishLibrary {claimed : Claimed}
    (hm : m.Underway finder thread slots found objects)
    (hmem : (CoreName.system, claimed.system) ∈ found) (hcharset : slots.charset = false) :
    (finishLibrary thread claimed).Achieves engine m fun _ m' =>
      m'.Underway finder thread { slots with charset := true } found objects := by
  refine achieves_bind (achieves_applyOverrides haloof hcomplete hm hcharset) fun _ _ hm => ?_
  refine achieves_bind (achieves_callDeclared haloof hm hmem hcomplete.setup
    (.of_name (by decide)) fun hm => achieves_pure hm) fun _ _ hm => ?_
  refine achieves_bind (achieves_setState hm _ nofun) fun _ _ hm => ?_
  exact achieves_setState hm _ nofun

/-- Without a class for the delegate, a start comes to its end. -/
theorem achieves_bootSequence (hm : m.Underway finder thread ⟨false, false, false, false⟩ [] [])
    (arguments : List String) :
    (bootSequence thread arguments).Achieves engine m fun _ _ => True := by
  refine achieves_bind (achieves_layFoundation haloof hcomplete hm rfl rfl rfl)
    fun claimed _ hm => ?_
  refine achieves_bind (achieves_finishLibrary haloof hcomplete hm List.mem_cons_self rfl)
    fun _ _ hm => ?_
  refine achieves_observe_bind ?_
  rw [hm.delegateClass]
  exact achieves_pure trivial

end Aloof

end Procedure

-- ---------------------------------------------------------------------------
-- When a start returns
-- ---------------------------------------------------------------------------

/-- A start returns if its sequence does. -/
theorem exists_boot_iff {arguments : List String} (hm : m.boot = .notBooted) :
    (∃ fuel m', Machine.perform engine fuel (.request (.boot thread arguments)) m =
      (.ok (.ok ()), m')) ↔
      (bootSequence thread arguments).Achieves engine (m.withBoot .booting) fun _ _ => True := by
  constructor
  · rintro ⟨fuel, m', h⟩
    match fuel, h with
    | 0, h => exact nomatch (Prod.mk.inj h).1
    | 1, h => exact nomatch (Prod.mk.inj h).1
    | fuel + 2, h =>
      -- a start from the first state is its sequence, with a move before and one after
      replace h : exec engine (fuel + 1) (booting thread arguments) m = (.ok (.ok ()), m') := h
      rw [exec_booting hm] at h
      split at h
      · rename_i last hrun
        exact ⟨fuel + 1, (), last, hrun, trivial⟩
      · exact nomatch (Prod.mk.inj h).1
      · exact nomatch (Prod.mk.inj h).1
  · rintro ⟨fuel, _, last, hrun, -⟩
    refine ⟨fuel + 2, last.withBoot .booted, ?_⟩
    change exec engine (fuel + 1) (booting thread arguments) m = _
    rw [exec_booting hm, exec_ok_of_le (Nat.le_succ fuel) hrun]

/-- **When a start returns.** On a new machine without a class for a delegate, on a thread without a
peer, and with an aloof engine: a start returns without a failure if and only if the class path has
all that a start requires. The classes that a start claims must be no super classes of those that it
initialises. -/
theorem boot_returns_iff {threads : Array ThreadBlock} {block : ThreadBlock}
    (haloof : engine.Aloof) (hblock : threads[thread.index]? = some block)
    (hpeer : block.peer = none)
    (hfree : ∀ name ∈ CoreName.initialized, ∀ other ∈ CoreName.claimed,
      ¬ Relation.TransGen finder.Super name other) (arguments : List String) (memory : σ) :
    (∃ fuel m', Machine.perform engine fuel (.request (.boot thread arguments))
      { Machine.new finder none memory with threads } = (.ok (.ok ()), m')) ↔ finder.Complete := by
  let m : Machine σ := { Machine.new finder none memory with threads }
  have hnew : m.boot = .notBooted := rfl
  rw [exists_boot_iff hnew]
  constructor
  · rintro ⟨fuel, _, last, hrun, -⟩
    have hbegun : (m.withBoot .booting).boot ≠ .notBooted := nofun
    have hthread : (m.withBoot .booting).thread? thread = some block := hblock
    exact complete_of_bootSequence haloof hbegun rfl rfl hthread hfree hrun
  · -- a complete class path meets every demand of the sequence, on a machine that has nothing yet
    intro hcomplete
    refine achieves_bootSequence haloof hcomplete ?_ arguments
    exact {
      faithful := Machine.faithful_of_empty rfl rfl
      delegateClass := rfl
      filled := by
        change Slots.mk false false false _ = _
        have hthread : (m.withBoot .booting).thread? thread = some block := hblock
        rw [hthread, Option.map_some, hpeer]
        rfl
      found := nofun
      plain := nofun }

/-- A class path that knows every name, with two classes that are each other's super class. -/
def ringFinder : Finder := fun name =>
  if name = CoreName.inputStream then some ⟨.memory name, heirFile name CoreName.printStream⟩
  else if name = CoreName.printStream then some ⟨.memory name, heirFile name CoreName.inputStream⟩
  else libraryFinder name

/-- A start on a new machine with one thread. -/
def ringRun : Except Halt (Except Fatal Unit) × Machine Unit :=
  Machine.perform inertEngine 9 (.request (.boot ⟨0⟩ []))
    { Machine.new ringFinder none () with threads := #[⟨"main", 1, none⟩] }

/-- The start returns, so the class path is complete, the ring of super classes included. -/
theorem ringRun_complete :
    (∀ name ∈ CoreName.initialized, ∀ other ∈ CoreName.claimed,
      ¬ Relation.TransGen ringFinder.Super name other) ∧
      returns ringRun = true ∧ ringFinder.Complete := by
  have hsupers : ∀ name ∈ CoreName.initialized,
      ((ringFinder.loaded? name).bind LoadedClass.superName?).all
        (· ∈ [CoreName.inputStream, CoreName.printStream]) = true := by decide +kernel
  have hring : ∀ name ∈ [CoreName.inputStream, CoreName.printStream],
      name ∈ CoreName.initialized := by decide
  have hstep : ∀ {name other}, name ∈ CoreName.initialized → ringFinder.Super name other →
      other ∈ [CoreName.inputStream, CoreName.printStream] := by
    rintro name other hname ⟨c, hloaded, -, hsuper⟩
    have hall := hsupers name hname
    rw [hloaded, Option.bind_some, hsuper] at hall
    simpa using hall
  -- along super classes one stays in the ring, which has none of the claimed classes
  have hfree : ∀ name ∈ CoreName.initialized, ∀ other ∈ CoreName.claimed,
      ¬ Relation.TransGen ringFinder.Super name other := by
    intro name hname other hother hreach
    have hmem : other ∈ [CoreName.inputStream, CoreName.printStream] := by
      clear hother
      induction hreach with
      | single hsuper => exact hstep hname hsuper
      | tail _ hsuper ih => exact hstep (hring _ ih) hsuper
    have hclaimed : ∀ name ∈ CoreName.claimed,
        name ∉ [CoreName.inputStream, CoreName.printStream] := by decide
    exact hclaimed other hother hmem
  have hreturns : returns ringRun = true := by decide +kernel
  have haloof : inertEngine.Aloof := fun _ => rfl
  have hthread : (#[⟨"main", 1, none⟩] : Array ThreadBlock)[0]? = some ⟨"main", 1, none⟩ := rfl
  -- completeness is what the run that returned says about the class path
  exact ⟨hfree, hreturns, (boot_returns_iff haloof hthread rfl hfree [] ()).mp
    ⟨9, ringRun.2, eq_of_returns hreturns⟩⟩

end ClassHost
