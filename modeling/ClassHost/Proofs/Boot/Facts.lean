import ClassHost.Proofs.Machine.Evolution
import Mathlib.Data.List.Forall2

/-!
# Facts that last

What a start establishes is said of classes by their names and of objects by their places:
`Initialized`, `HasRole`, `HasStatic`, `IsInstance`, `Canonical`, `HasPeer`. Each fact lasts as long
as what it is about is not touched, and there is one lemma for each that says so. `Idle` and
`Untagged` are what a class is before anything was done to it, and hold of every name on a machine
that has loaded nothing.
-/

namespace ClassHost

namespace ClassTable

/-- The class of a name. -/
def named? (table : ClassTable) (name : String) : Option LoadedClass :=
  (table.find? name).bind table.get?

/-- The names lead to the classes, one to one. -/
def Finds (table : ClassTable) (names : List String) (types : List ClassId) : Prop :=
  List.Forall₂ (fun name type => table.find? name = some type) names types

variable {table : ClassTable} {name : String} {id : ClassId} {c : LoadedClass}

theorem named?_of_find? (hfind : table.find? name = some id) (hget : table.get? id = some c) :
    table.named? name = some c := by
  rw [named?, hfind]
  exact hget

theorem exists_named? (hfind : table.find? name = some id) :
    ∃ c, table.get? id = some c ∧ table.named? name = some c ∧ c.name = name := by
  obtain ⟨c, hget, hname⟩ := get?_of_find? hfind
  exact ⟨c, hget, named?_of_find? hfind hget, hname⟩

theorem find?_of_named? (h : table.named? name = some c) :
    ∃ id, table.find? name = some id ∧ table.get? id = some c ∧ c.name = name := by
  obtain ⟨id, hfind, hget⟩ := Option.bind_eq_some_iff.mp h
  obtain ⟨c', hget', hname⟩ := get?_of_find? hfind
  obtain rfl := Option.some.inj (hget.symm.trans hget')
  exact ⟨id, hfind, hget, hname⟩

end ClassTable

variable {σ : Type} {m m' : Machine σ} {touched : List Aspect} {calls : List Call}
  {name : String}

namespace Machine

/-- The class of the name is initialised. -/
def Initialized (m : Machine σ) (name : String) : Prop :=
  ∃ c, m.table.named? name = some c ∧ c.state = .fullyInitialized

/-- The class of the name has been tagged. -/
def HasRole (m : Machine σ) (name : String) (role : ClassRole) : Prop :=
  ∃ c, m.table.named? name = some c ∧ c.role = some role

/-- The static field of the class of the name has been written. -/
def HasStatic (m : Machine σ) (name : String) (key : FieldKey) (value : Value) : Prop :=
  ∃ c, m.table.named? name = some c ∧ c.statics.lookup key = some value

/-- The object is of the class of the name. -/
def IsInstance (m : Machine σ) (id : ObjectId) (name : String) : Prop :=
  ∃ object, m.heap.get? id = some object ∧ m.table.find? name = some object.type

/-- The field of the object has been written. -/
def HasField (m : Machine σ) (id : ObjectId) (key : FieldKey) (value : Value) : Prop :=
  ∃ object, m.heap.get? id = some object ∧ object.field? key = some value

theorem HasField.of_plain {m : Machine σ} {id : ObjectId} {type : ClassId}
    {fields : List (FieldKey × Value)} {key : FieldKey} {value : Value}
    (hget : m.heap.get? id = some ⟨type, .plain fields⟩) (hfield : fields.lookup key = some value) :
    m.HasField id key value :=
  ⟨_, hget, hfield⟩

/-- The object is the canonical string of the text. -/
def Canonical (m : Machine σ) (id : ObjectId) (text : String) : Prop :=
  m.strings.strings.lookup (Text.units text) = some id

/-- The thread has this handle and this peer. -/
def HasPeer (m : Machine σ) (thread : ThreadId) (handle : Int64) (peer : ObjectId) : Prop :=
  ∃ block, m.thread? thread = some block ∧ block.handle = handle ∧ block.peer = some peer

/-- The object is an array of the canonical strings of the texts. -/
def StringArray (m : Machine σ) (id : ObjectId) (texts : List String) : Prop :=
  ∃ type elements, m.table.find? CoreName.stringArray = some type ∧
    m.heap.get? id = some ⟨type, .array elements⟩ ∧
    List.Forall₂ (fun text value => ∃ string, value = .object string ∧ m.Canonical string text)
      texts elements.toList

/-- No class of the name counts as being initialised. -/
def Idle (m : Machine σ) (name : String) : Prop :=
  ∀ id c, m.table.get? id = some c → c.name = name → c.state ≠ .beingInitialized

/-- No class of the name has a role. -/
def Untagged (m : Machine σ) (name : String) : Prop :=
  ∀ id c, m.table.get? id = some c → c.name = name → c.role = none

end Machine

-- ---------------------------------------------------------------------------
-- Lasting
-- ---------------------------------------------------------------------------

namespace Evolves

variable (h : Evolves touched calls m m')

include h

/-- The class of a name stays the class of that name. -/
theorem named? {c : LoadedClass} (hnamed : m.table.named? name = some c) :
    ∃ c', m'.table.named? name = some c' ∧ c.name = name ∧
      ClassFrame (.journal :: touched) c c' := by
  obtain ⟨id, hfind, hget, hname⟩ := ClassTable.find?_of_named? hnamed
  obtain ⟨c', hget', hframe⟩ := h.touches.table.get? hget
  exact ⟨c', ClassTable.named?_of_find? (h.touches.table.find? hfind) hget', hname, hframe⟩

theorem finds {names : List String} {types : List ClassId} (hfact : m.table.Finds names types) :
    m'.table.Finds names types :=
  hfact.imp fun _ _ hfind => h.touches.table.find? hfind

/-- Methods are declared for good. -/
theorem method? {kind : MethodKind} {type : ClassId} {key : MethodKey} {method : MethodRef}
    (hmethod : m.table.method? kind type key = some method) :
    m'.table.method? kind type key = some method := by
  refine ClassTable.method?_of_kind (fun c hget => ?_) hmethod
  obtain ⟨c', hget', hframe⟩ := h.touches.table.get? hget
  exact ⟨c', hget', hframe.kind⟩

theorem initialized (hname : .state name ∉ touched) (hfact : m.Initialized name) :
    m'.Initialized name := by
  obtain ⟨c, hnamed, hstate⟩ := hfact
  obtain ⟨c', hnamed', rfl, hframe⟩ := h.named? hnamed
  exact ⟨c', hnamed', hframe.initialized (by simpa using hname) hstate⟩

theorem hasRole {role : ClassRole} (hname : .role name ∉ touched) (hfact : m.HasRole name role) :
    m'.HasRole name role := by
  obtain ⟨c, hnamed, hrole⟩ := hfact
  obtain ⟨c', hnamed', rfl, hframe⟩ := h.named? hnamed
  exact ⟨c', hnamed', (hframe.role (by simpa using hname)).trans hrole⟩

theorem hasStatic {key : FieldKey} {value : Value} (hname : .statics name ∉ touched)
    (hfact : m.HasStatic name key value) : m'.HasStatic name key value := by
  obtain ⟨c, hnamed, hstatic⟩ := hfact
  obtain ⟨c', hnamed', rfl, hframe⟩ := h.named? hnamed
  refine ⟨c', hnamed', ?_⟩
  rw [hframe.statics (by simpa using hname)]
  exact hstatic

theorem plain {id : ObjectId} {type : ClassId} {fields : List (FieldKey × Value)}
    (hid : .object id ∉ touched) (hfact : m.heap.get? id = some ⟨type, .plain fields⟩) :
    m'.heap.get? id = some ⟨type, .plain fields⟩ := by
  obtain ⟨object', hget, -, hsame⟩ := h.touches.heap.get? hfact
  rcases hsame (by simpa using hid) with ⟨elements, harray⟩ | rfl
  · exact nomatch harray
  · exact hget

theorem hasField {id : ObjectId} {key : FieldKey} {value : Value} (hid : .object id ∉ touched)
    (hfact : m.HasField id key value) : m'.HasField id key value := by
  obtain ⟨⟨type, body⟩, hget, hfield⟩ := hfact
  cases body with
  | plain fields => exact ⟨_, h.plain hid hget, hfield⟩
  | array elements => exact nomatch hfield
  | string units hash => exact nomatch hfield

theorem isInstance {id : ObjectId} (hfact : m.IsInstance id name) : m'.IsInstance id name := by
  obtain ⟨object, hget, hfind⟩ := hfact
  obtain ⟨object', hget', htype, -⟩ := h.touches.heap.get? hget
  exact ⟨object', hget', htype ▸ h.touches.table.find? hfind⟩

theorem canonical {id : ObjectId} {text : String} (hfact : m.Canonical id text) :
    m'.Canonical id text :=
  h.touches.strings.lookup hfact

theorem hasPeer {thread : ThreadId} {handle : Int64} {peer : ObjectId}
    (hfact : m.HasPeer thread handle peer) : m'.HasPeer thread handle peer := by
  obtain ⟨block, hget, hhandle, hpeer⟩ := hfact
  obtain ⟨block', hget', hframe⟩ := h.touches.threads.get? hget
  exact ⟨block', hget', hframe.handle.trans hhandle, hframe.peer hpeer⟩

theorem idle (hname : .state name ∉ touched) (hfact : m.Idle name) : m'.Idle name := by
  intro id c' hget' hc'
  subst hc'
  cases hget : m.table.get? id with
  | none => exact h.touches.table.fresh_state hget' hget (by simpa using hname)
  | some c =>
    obtain ⟨c'', hget'', hframe⟩ := h.touches.table.get? hget
    obtain rfl := Option.some.inj (hget'.symm.trans hget'')
    rw [hframe.name] at hname hfact
    rw [ne_eq, hframe.busy (by simpa using hname)]
    exact hfact id c hget rfl

theorem untagged (hname : .role name ∉ touched) (hfact : m.Untagged name) : m'.Untagged name := by
  intro id c' hget' hc'
  subst hc'
  cases hget : m.table.get? id with
  | none => exact h.touches.table.fresh_role hget' hget (by simpa using hname)
  | some c =>
    obtain ⟨c'', hget'', hframe⟩ := h.touches.table.get? hget
    obtain rfl := Option.some.inj (hget'.symm.trans hget'')
    rw [hframe.name] at hname hfact
    rw [hframe.role (by simpa using hname)]
    exact hfact id c hget rfl

end Evolves

namespace Machine

theorem idle_of_empty (h : m.table = .empty) (name : String) : m.Idle name := by
  intro id c hget
  simp [h] at hget

theorem untagged_of_empty (h : m.table = .empty) (name : String) : m.Untagged name := by
  intro id c hget
  simp [h] at hget

end Machine

end ClassHost
