import ClassHost.Proofs.Boot.Keeping
import ClassHost.Proofs.Loader.ArrayNames
import ClassHost.Proofs.Machine.CanonicalStrings
import ClassHost.Proofs.Machine.TableSteps

/-!
# Raising exceptions

The machine raises exceptions of its own, and for that it needs the classes that a start captures.
`raising_never_fails` says of every run of a new machine, at every mark and at its end, that raising
works as soon as the classes are captured: the class is there and no array class, the object is made
of it, the message is interned, and the field is written. A start that fails later changes nothing
about that. Before, raising fails and does nothing else.

Four things could go wrong, and each is kept out by something that lasts (`Machine.Equipped`):

* An exception could be unknown, or the pool could be unbound. Both are settled before the classes
  are captured (`Upkeep.Warranted`), and clients that bind the pool before a start make the start
  fail.
* Its class could be an array class. Those have bracketed names (`ClassTable.ArraysBracketed`),
  however they have come into the table, and exceptions have not.
* The key of the field could be malformed. It is the one that its two texts are read as.
-/

namespace ClassHost

variable {σ α : Type} {engine : Engine σ} {fuel : Nat} {m m' : Machine σ} {known : WellKnown}
  {error : RaisedError}

-- ---------------------------------------------------------------------------
-- Array classes by name
-- ---------------------------------------------------------------------------

/-- The names of array classes begin with a bracket. -/
def ClassTable.ArraysBracketed (table : ClassTable) : Prop :=
  ∀ id c, table.get? id = some c → c.isArray = true → IsBracketed c.name

namespace ClassTable.ArraysBracketed

variable {table table' : ClassTable}

theorem empty : ClassTable.empty.ArraysBracketed := by
  intro id c hget
  simp at hget

theorem built (h : table.ArraysBracketed) (hbuilt : Built table table') :
    table'.ArraysBracketed := by
  induction hbuilt with
  | refl => exact h
  | add _ _ hkind ih =>
    intro id c hget
    exact ClassTable.of_get?_push (P := fun c => c.isArray = true → IsBracketed c.name) (ih id)
      (isBracketed_of_defines (c := .ofKind _ _) hkind) hget

/-- A change of one class that keeps its name and kind. -/
theorem modify (h : table.ArraysBracketed) {change : LoadedClass → LoadedClass}
    (hname : ∀ c, (change c).name = c.name) (hkind : ∀ c, (change c).kind = c.kind) (id : ClassId) :
    (table.modify id change).ArraysBracketed := by
  intro other c hget harray
  rw [ClassTable.get?_modify] at hget
  split at hget
  · obtain ⟨old, hold, rfl⟩ := Option.map_eq_some_iff.mp hget
    rw [LoadedClass.isArray, hkind] at harray
    rw [hname]
    exact h other old hold harray
  · exact h other c hget harray

theorem setState (h : table.ArraysBracketed) (id : ClassId) (state : ClassState) :
    (table.setState id state).ArraysBracketed := by
  unfold ClassTable.setState
  refine h.modify ?_ ?_ id <;> exact fun _ => rfl

end ClassTable.ArraysBracketed

namespace Machine

theorem TableStep.arraysBracketed {table : ClassTable} (h : m.TableStep table)
    (harrays : m.table.ArraysBracketed) : table.ArraysBracketed := by
  cases h with
  | same => exact harrays
  | load name =>
    exact harrays.built (Loader.spec_load m.classPath name m.loader _ _ rfl).grows.built
  | modify type change hname hkind _ => exact harrays.modify hname hkind type

theorem arraysBracketed_access (access : Access σ) (h : m.table.ArraysBracketed) :
    (access.apply m).2.table.ArraysBracketed := by
  by_cases hplain : access.Plain
  · exact (Access.step hplain m).2.arraysBracketed h
  · cases access with
    | setClassPath classPath => exact h
    | setState type state => exact h.setState type state
    | transition type source target =>
      change (m.table.transition type source target).2.ArraysBracketed
      unfold ClassTable.transition
      split
      · exact h.setState type target
      · exact h
    | loadBytes bytes =>
      exact h.built (Loader.grows_loadBytes (Prod.eta (Loader.loadBytes bytes m.loader)).symm).built
    | _ => exact absurd trivial hplain

-- ---------------------------------------------------------------------------
-- What lasts
-- ---------------------------------------------------------------------------

/-- What raising an exception relies on. -/
structure Equipped (m : Machine σ) : Prop where
  captured : ∀ known, m.wellKnown = some known → (Upkeep.capture known).Warranted m
  arrays : m.table.ArraysBracketed
  pool : ∃ found, PoolHolds found m

theorem wellKnown_access (access : Access σ) (m : Machine σ) :
    (access.apply m).2.wellKnown = m.wellKnown :=
  (access.touches m).wellKnown (by cases access <;> simp [Access.touched])

theorem equipped_access (access : Access σ) (h : m.Equipped) : (access.apply m).2.Equipped where
  captured known hknown := by
    rw [wellKnown_access] at hknown
    exact warranted_capture_keep (h.captured known hknown) (access.touches m).table.keeps
      (bound_access access)
  arrays := arraysBracketed_access access h.arrays
  pool := by
    obtain ⟨found, hpool⟩ := h.pool
    exact ⟨_, hpool.access access⟩

theorem equipped_upkeep {upkeep : Upkeep} (hupkeep : upkeep.Warranted m) (h : m.Equipped) :
    (upkeep.apply m).2.Equipped where
  captured known hknown := by
    -- what is captured afterwards was captured before or is captured by this upkeep
    have hlast : (Upkeep.capture known).Warranted m := by
      cases upkeep with
      | capture new =>
        rw [Upkeep.apply_capture] at hknown
        split at hknown
        · exact h.captured known hknown
        · obtain rfl := Option.some.inj hknown
          exact hupkeep
      | setCharset charset =>
        rw [Upkeep.apply_setCharset] at hknown
        split at hknown <;> exact h.captured known hknown
      | _ => exact h.captured known hknown
    refine warranted_capture_keep hlast ?_ ?_
    · rw [(upkeep.keeps m).1]
      exact .refl m.table
    · rw [(upkeep.keeps m).2.2.1]
      exact id
  arrays := by
    rw [(upkeep.keeps m).1]
    exact h.arrays
  pool := by
    obtain ⟨found, hpool⟩ := h.pool
    exact ⟨found, hpool.keep (.upkeep upkeep m)⟩

/-- **Machines stay equipped.** -/
theorem maintained_equipped : Maintained (σ := σ) (fun _ => True) Equipped where
  own _ _ := trivial
  access access _ h := equipped_access access h
  upkeep _ hupkeep h := equipped_upkeep hupkeep h
  threads _ _ h := by
    obtain ⟨found, hpool⟩ := h.pool
    exact ⟨h.captured, h.arrays, found, hpool.keep (.of_eq rfl rfl)⟩

theorem equipped_new (classPath : Finder) (delegateClass : Option String) (memory : σ) :
    (Machine.new classPath delegateClass memory).Equipped where
  captured := nofun
  arrays := .empty
  pool := ⟨[], .new classPath delegateClass memory⟩

end Machine

-- ---------------------------------------------------------------------------
-- Raising
-- ---------------------------------------------------------------------------

/-- A name that leads to one of the classes leads to the class of that name. -/
theorem ClassTable.Finds.exists_of_mem {table : ClassTable} {names : List String}
    {types : List ClassId} (h : table.Finds names types) {name : String} (hname : name ∈ names) :
    ∃ type ∈ types, (types.find? fun id => table.nameOf id = name) = some type ∧
      table.find? name = some type := by
  induction h with
  | nil => exact nomatch hname
  | @cons first type names types hfirst _ ih =>
    have hnamed := nameOf_of_find? hfirst
    by_cases hsame : first = name
    · subst hsame
      refine ⟨type, List.mem_cons_self, ?_, hfirst⟩
      rw [List.find?_cons_of_pos (by simpa using hnamed)]
    · obtain ⟨found, hmem, hfind, hlast⟩ := ih ((List.mem_cons.mp hname).resolve_left (Ne.symm hsame))
      refine ⟨found, List.mem_cons_of_mem _ hmem, ?_, hlast⟩
      rw [List.find?_cons_of_neg (by simpa [hnamed] using hsame), hfind]

theorem RaisedError.className_mem (error : RaisedError) :
    error.className ∈ CoreName.exceptions := by
  cases error <;>
    simp [className, CoreName.exceptions, CoreName.nullPointerException,
      CoreName.arrayIndexOutOfBoundsException, CoreName.classNotFoundException,
      CoreName.internalError, CoreName.inputOutputException]

theorem CoreName.not_isBracketed_exception :
    ∀ name ∈ CoreName.exceptions, ¬ IsBracketed name := by
  decide

namespace Machine

/-- The class of an exception has been captured, and has instances. -/
theorem Equipped.exists_type (h : m.Equipped) (hknown : m.wellKnown = some known)
    (error : RaisedError) :
    ∃ type c, type ∈ known.exceptions ∧ known.exception? m.table error.className = some type ∧
      m.table.find? error.className = some type ∧ m.table.get? type = some c ∧
      c.isArray = false := by
  obtain ⟨-, hexceptions, -⟩ := h.captured known hknown
  obtain ⟨type, hmem, hexception, hfind⟩ := hexceptions.exists_of_mem error.className_mem
  obtain ⟨c, hget, hname⟩ := ClassTable.get?_of_find? hfind
  refine ⟨type, c, hmem, hexception, hfind, hget, ?_⟩
  by_contra harray
  have hbracketed := h.arrays type c hget (Bool.eq_true_of_not_eq_false harray)
  rw [hname] at hbracketed
  exact CoreName.not_isBracketed_exception _ error.className_mem hbracketed

/-- A class that is no array class has instances. -/
theorem exists_newInstance {type : ClassId} {c : LoadedClass} (hget : m.table.get? type = some c)
    (harray : c.isArray = false) :
    ∃ object made, newInstance type m = (.ok object, made) ∧ m.heap.get? object = none ∧
      made.heap.get? object = some ⟨type, .plain []⟩ ∧ made.strings = m.strings := by
  rw [newInstance, allocating_apply, Heap.newInstance, hget, Option.map_some, Option.getD_some,
    harray]
  exact ⟨_, _, rfl, Heap.get?_alloc_fresh m.heap ⟨type, .plain []⟩,
    Heap.get?_alloc_self m.heap ⟨type, .plain []⟩, rfl⟩

/-- A bound pool interns every text. -/
theorem exists_intern (h : m.strings.stringClass.isSome) (text : String) :
    ∃ string middle, intern text m = (.ok string, middle) := by
  obtain ⟨type, htype⟩ := Option.isSome_iff_exists.mp h
  rw [intern_apply, StringPool.intern, htype]
  dsimp only
  cases m.strings.strings.lookup (Text.units text) with
  | some string => exact ⟨string, _, rfl⟩
  | none => exact ⟨_, _, rfl⟩

/-- The fields of an instance can be written. -/
theorem exists_setField {type : ClassId} {object : ObjectId} {fields : List (FieldKey × Value)}
    (h : m.heap.get? object = some ⟨type, .plain fields⟩) (key : FieldKey) (value : Value) :
    ∃ last, setField object key value m = (.ok (), last) ∧
      last.heap.get? object = some ⟨type, .plain (storeField fields key value)⟩ ∧
      last.strings = m.strings := by
  rw [setField, writing_apply, Heap.setField, h]
  refine ⟨_, rfl, ?_, rfl⟩
  rw [Heap.get?_setBody, if_pos rfl, h]
  rfl

/-- Raising an exception is making its object, interning its message and writing the field. -/
theorem raise_of_parts {type : ClassId} {object string : ObjectId} {made middle last : Machine σ}
    (hknown : m.wellKnown = some known)
    (hexception : known.exception? m.table error.className = some type)
    (hnew : newInstance type m = (.ok object, made))
    (hintern : intern error.message made = (.ok string, middle))
    (hwrite : setField object messageField (.object string) middle = (.ok (), last)) :
    raise error m = (.ok ⟨error.message, type, .object object, []⟩, last) := by
  unfold raise
  rw [Effect.get_bind, hknown]
  dsimp only
  rw [hexception]
  dsimp only
  rw [Effect.bind_apply, hnew]
  dsimp only
  rw [Effect.bind_apply, hintern]
  dsimp only
  rw [Effect.bind_apply, hwrite]
  rfl

/-- The text has been interned, and interning it again changes nothing. -/
theorem intern_of_canonical {text : String} {string : ObjectId} (h : m.Canonical string text)
    (hbound : m.strings.stringClass.isSome) : intern text m = (.ok string, m) := by
  obtain ⟨type, htype⟩ := Option.isSome_iff_exists.mp hbound
  rw [intern_apply, StringPool.intern, htype]
  dsimp only
  rw [h]

end Machine

/-- What raising an exception is to give: an object of the captured class of the exception, made for
it, with a message that is canonical. -/
structure RaisedWell (m m' : Machine σ) (known : WellKnown) (error : RaisedError) (type : ClassId)
    (object string : ObjectId) : Prop where
  raised : Machine.raise error m = (.ok ⟨error.message, type, .object object, []⟩, m')
  captured : type ∈ known.exceptions
  /-- The class of the exception's name is the one, and it is no array class. -/
  named : m.table.find? error.className = some type ∧ m.className type = error.className
  plain : ∃ c, m.table.get? type = some c ∧ c.isArray = false
  fresh : m.heap.get? object = none
  object : m'.heap.get? object = some ⟨type, .plain [(Machine.messageField, .object string)]⟩
  canonical : Machine.intern error.message m' = (.ok string, m')
  units : ∃ stringType, m'.strings.stringClass = some stringType ∧
    m'.heap.get? string = some ⟨stringType,
      .string (Text.units error.message) (Text.hash (Text.units error.message))⟩

namespace Machine

/-- **Raising works** where the classes have been captured. -/
theorem Equipped.raisedWell (h : m.Equipped) (hknown : m.wellKnown = some known)
    (error : RaisedError) :
    ∃ m' type object string, RaisedWell m m' known error type object string := by
  -- the three parts of a raise succeed in turn: the object, the string, the write of the message
  obtain ⟨type, c, hmem, hexception, hfind, hget, harray⟩ := h.exists_type hknown error
  obtain ⟨-, -, hbound⟩ := h.captured known hknown
  obtain ⟨object, made, hnew, hfresh, hplain, hstrings⟩ := exists_newInstance hget harray
  obtain ⟨string, middle, hintern⟩ := exists_intern (m := made) (hstrings ▸ hbound) error.message
  obtain ⟨last, hwrite, hobject, hsame⟩ := exists_setField
    (Procedure.get?_of_intern hintern hplain) messageField (.object string)
  have hraise := raise_of_parts hknown hexception hnew hintern hwrite
  -- what was maintained so far holds of the machine that is left, too
  obtain ⟨found, hpool⟩ := (equipped_access (.raise error) h).pool
  change PoolHolds found (raise error m).2 at hpool
  rw [hraise] at hpool
  have hcanonical : last.Canonical string error.message := by
    rw [Canonical, hsame]
    exact Procedure.canonical_of_intern hintern
  obtain ⟨stringType, hstringType, hstring⟩ := hpool.object (mem_of_lookup hcanonical)
  exact ⟨last, type, object, string, {
    raised := hraise
    captured := hmem
    named := ⟨hfind, ClassTable.nameOf_of_find? hfind⟩
    plain := ⟨c, hget, harray⟩
    fresh := hfresh
    object := hobject
    canonical := intern_of_canonical hcanonical (Option.isSome_iff_exists.mpr ⟨_, hstringType⟩)
    units := ⟨stringType, hstringType, hstring⟩ }⟩

/-- Without the classes, raising fails and does nothing. -/
theorem raise_of_none (hknown : m.wellKnown = none) (error : RaisedError) :
    raise error m = (.error (.internal (.raisedBeforeBoot error)), m) := by
  unfold raise
  rw [Effect.get_bind, hknown]
  rfl

end Machine

-- ---------------------------------------------------------------------------
-- The promise
-- ---------------------------------------------------------------------------

/-- What holds of raising exceptions on a machine: it never fails where the well-known classes have
been captured, and does nothing but fail where they have not. -/
structure RaisesWell (m : Machine σ) : Prop where
  captured : ∀ known, m.wellKnown = some known → ∀ error, ∃ m' type object string,
    RaisedWell m m' known error type object string
  uncaptured : m.wellKnown = none → ∀ error,
    Machine.raise error m = (.error (.internal (.raisedBeforeBoot error)), m)

/-- The field for messages has the key that its texts are read as. -/
theorem messageField_parsed :
    FieldKey.parse "detailMessage" "Ljava/lang/String;" = .ok Machine.messageField := by
  decide +kernel

/-- **Raising never fails once the classes are captured.** Let a guest do whatever it likes on a new
machine, with whatever class path and engine. At every mark of the run, also inside a start and
after one that captured the classes and failed, and when the run is over, all exceptions can be
raised if the classes have been captured, and none otherwise. The key of the field that is written
is well formed. -/
theorem raising_never_fails (engine : Engine σ) (fuel : Nat) (guest : Guest σ α)
    (classPath : Finder) (delegateClass : Option String) (memory : σ) :
    (∀ mark ∈ Machine.trace engine fuel guest (.new classPath delegateClass memory),
      RaisesWell mark.machine) ∧
    RaisesWell (Machine.run engine fuel guest (.new classPath delegateClass memory)).2 ∧
    FieldKey.parse "detailMessage" "Ljava/lang/String;" = .ok Machine.messageField := by
  have hwell : ∀ {m : Machine σ}, m.Equipped → RaisesWell m := fun h =>
    ⟨fun _ hknown error => h.raisedWell hknown error, Machine.raise_of_none⟩
  obtain ⟨hmarks, hlast⟩ := Machine.maintained_equipped.trace
    (fun call => Program.only_true (engine.respond call)) (Program.only_true guest)
    (Machine.equipped_new classPath delegateClass memory)
  exact ⟨fun mark hmark => hwell (hmarks mark hmark), hwell hlast, messageField_parsed⟩

/-- A class path with the well-known classes and nothing else. -/
def coreFinder : Finder := fun name =>
  if name ∈ CoreName.core ++ CoreName.exceptions then
    some ⟨.memory name, libraryFile name []⟩
  else none

/-- Starts the machine, and raises an exception whatever came of that. -/
def raisingGuest : Guest Unit (Except Throwable RuntimeException) :=
  .ask (.access (.newThread "main")) fun thread => .ask (.boot thread []) fun _ =>
    .ask (.access (.raise (.internalError "late"))) fun result => .done result

/-- A start there captures the classes and fails when it asks for the next one. -/
def coreRun : Except Halt (Except Throwable RuntimeException) × Machine Unit :=
  Machine.run inertEngine 4 raisingGuest (.new coreFinder none ())

/-- The exception is raised although the start has failed. -/
theorem coreRun_raises :
    coreRun.2.boot = .failed ∧ coreRun.2.wellKnown.isSome = true ∧
    (coreRun.1.toOption.bind Except.toOption).map RuntimeException.message =
      some "java/lang/InternalError: late" ∧
    (∀ mark ∈ Machine.trace inertEngine 4 raisingGuest (.new coreFinder none ()),
      RaisesWell mark.machine) ∧
    RaisesWell coreRun.2 := by
  have hrun : (coreRun.2.boot, coreRun.2.wellKnown.isSome,
      (coreRun.1.toOption.bind Except.toOption).map RuntimeException.message) =
        (.failed, true, some "java/lang/InternalError: late") := by decide +kernel
  obtain ⟨hboot, hrest⟩ := Prod.mk.inj hrun
  obtain ⟨hknown, hmessage⟩ := Prod.mk.inj hrest
  obtain ⟨hmarks, hlast, -⟩ := raising_never_fails inertEngine 4 raisingGuest coreFinder none ()
  exact ⟨hboot, hknown, hmessage, hmarks, hlast⟩

end ClassHost
