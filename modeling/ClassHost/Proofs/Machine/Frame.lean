import ClassHost.Machine.Request
import ClassHost.Proofs.Heap
import ClassHost.Proofs.Loader.Results

/-!
# What stays as it is

`Touches` relates the machine before to the machine after something has run. It promises that what
was there stays there: classes keep their place, name and kind, objects keep their class, canonical
strings and threads remain. Beyond that it promises everything except what is listed as touched:
an `Aspect` is one thing that can be written, of one class or one object. The elements of arrays are
not among them.

Such relations compose, with the touched aspects put together (`Touches.trans`), and what is touched
on an object that was not there before does not count (`Touches.of_fresh`). `Access.touches` lists
what every access touches.
-/

namespace ClassHost

/-- One thing that can be written. Classes are meant by their names. -/
inductive Aspect where
  | state (name : String)
  | role (name : String)
  | statics (name : String)
  /-- The fields of an object. -/
  | object (id : ObjectId)
  | delegate
  | wellKnown
  | charset
  | boot
  | journal
  deriving DecidableEq

variable {touched touched' : List Aspect}

-- ---------------------------------------------------------------------------
-- Classes
-- ---------------------------------------------------------------------------

/-- What happened to one class. A class that is not touched may have been initialised, or an
attempt at it may have failed, but none has been left open or closed. -/
structure ClassFrame (touched : List Aspect) (c c' : LoadedClass) : Prop where
  name : c'.name = c.name
  kind : c'.kind = c.kind
  role : .role c.name ∉ touched → c'.role = c.role
  statics : .statics c.name ∉ touched → c'.statics = c.statics
  busy : .state c.name ∉ touched → (c'.state = .beingInitialized ↔ c.state = .beingInitialized)
  initialized : .state c.name ∉ touched → c.state = .fullyInitialized →
    c'.state = .fullyInitialized

theorem ClassFrame.refl (touched : List Aspect) (c : LoadedClass) : ClassFrame touched c c :=
  ⟨rfl, rfl, fun _ => rfl, fun _ => rfl, fun _ => Iff.rfl, fun _ h => h⟩

theorem ClassFrame.trans {c c' c'' : LoadedClass} (h : ClassFrame touched c c')
    (h' : ClassFrame touched' c' c'') : ClassFrame (touched ++ touched') c c'' where
  name := h'.name.trans h.name
  kind := h'.kind.trans h.kind
  role hrole := by
    rw [List.mem_append, not_or] at hrole
    exact (h'.role (h.name ▸ hrole.2)).trans (h.role hrole.1)
  statics hstatics := by
    rw [List.mem_append, not_or] at hstatics
    exact (h'.statics (h.name ▸ hstatics.2)).trans (h.statics hstatics.1)
  busy hstate := by
    rw [List.mem_append, not_or] at hstate
    exact (h'.busy (h.name ▸ hstate.2)).trans (h.busy hstate.1)
  initialized hstate hfully := by
    rw [List.mem_append, not_or] at hstate
    exact h'.initialized (h.name ▸ hstate.2) (h.initialized hstate.1 hfully)

theorem ClassFrame.mono (hsub : touched ⊆ touched') {c c' : LoadedClass}
    (h : ClassFrame touched c c') : ClassFrame touched' c c' where
  name := h.name
  kind := h.kind
  role hrole := h.role fun hmem => hrole (hsub hmem)
  statics hstatics := h.statics fun hmem => hstatics (hsub hmem)
  busy hstate := h.busy fun hmem => hstate (hsub hmem)
  initialized hstate := h.initialized fun hmem => hstate (hsub hmem)

/-- What happened to a table. New classes are untagged and no attempt at them is open. -/
structure TableFrame (touched : List Aspect) (table table' : ClassTable) : Prop where
  get? : ∀ {id c}, table.get? id = some c → ∃ c', table'.get? id = some c' ∧ ClassFrame touched c c'
  find? : ∀ {name id}, table.find? name = some id → table'.find? name = some id
  fresh_role : ∀ {id c}, table'.get? id = some c → table.get? id = none →
    .role c.name ∉ touched → c.role = none
  fresh_state : ∀ {id c}, table'.get? id = some c → table.get? id = none →
    .state c.name ∉ touched → c.state ≠ .beingInitialized

namespace TableFrame

variable {table table' table'' : ClassTable}

theorem refl (touched : List Aspect) (table : ClassTable) : TableFrame touched table table where
  get? hget := ⟨_, hget, .refl _ _⟩
  find? hfind := hfind
  fresh_role hget hnone := by simp [hget] at hnone
  fresh_state hget hnone := by simp [hget] at hnone

theorem trans (h : TableFrame touched table table') (h' : TableFrame touched' table' table'') :
    TableFrame (touched ++ touched') table table'' where
  get? hget := by
    obtain ⟨c', hget', hframe⟩ := h.get? hget
    obtain ⟨c'', hget'', hframe'⟩ := h'.get? hget'
    exact ⟨c'', hget'', hframe.trans hframe'⟩
  find? hfind := h'.find? (h.find? hfind)
  fresh_role {id c} hget hnone hrole := by
    rw [List.mem_append, not_or] at hrole
    -- a class that is new in the end is new in one of the two stretches
    cases hmiddle : table'.get? id with
    | none => exact h'.fresh_role hget hmiddle hrole.2
    | some middle =>
      obtain ⟨c', hget', hframe⟩ := h'.get? hmiddle
      obtain rfl := Option.some.inj (hget.symm.trans hget')
      rw [hframe.name] at hrole
      exact (hframe.role hrole.2).trans (h.fresh_role hmiddle hnone hrole.1)
  fresh_state {id c} hget hnone hstate := by
    rw [List.mem_append, not_or] at hstate
    cases hmiddle : table'.get? id with
    | none => exact h'.fresh_state hget hmiddle hstate.2
    | some middle =>
      obtain ⟨c', hget', hframe⟩ := h'.get? hmiddle
      obtain rfl := Option.some.inj (hget.symm.trans hget')
      rw [hframe.name] at hstate
      rw [ne_eq, hframe.busy hstate.2]
      exact h.fresh_state hmiddle hnone hstate.1

theorem mono (hsub : touched ⊆ touched') (h : TableFrame touched table table') :
    TableFrame touched' table table' where
  get? hget := by
    obtain ⟨c', hget', hframe⟩ := h.get? hget
    exact ⟨c', hget', hframe.mono hsub⟩
  find? := h.find?
  fresh_role hget hnone hrole := h.fresh_role hget hnone fun hmem => hrole (hsub hmem)
  fresh_state hget hnone hstate := h.fresh_state hget hnone fun hmem => hstate (hsub hmem)

/-- Loading touches nothing. -/
theorem of_built (h : Built table table') : TableFrame [] table table' where
  get? hget := ⟨_, h.get?_of_some hget, .refl _ _⟩
  find? := h.find?_of_some
  fresh_role hget hnone _ := by
    obtain ⟨name, kind, rfl⟩ := h.eq_ofKind hget hnone
    rfl
  fresh_state hget hnone _ := by
    obtain ⟨name, kind, rfl⟩ := h.eq_ofKind hget hnone
    nofun

/-- A change of one class. -/
theorem of_modify {id : ClassId} {change : LoadedClass → LoadedClass}
    (hname : ∀ c, (change c).name = c.name)
    (hchange : ∀ c, table.get? id = some c → ClassFrame touched c (change c)) :
    TableFrame touched table (table.modify id change) where
  get? {other c} hget := by
    rw [ClassTable.get?_modify, hget]
    split
    · -- the modified class
      rename_i hid
      subst hid
      exact ⟨_, rfl, hchange c hget⟩
    · exact ⟨c, rfl, .refl _ _⟩
  find? hfind := (ClassTable.find?_modify hname).trans hfind
  fresh_role {other c} hget hnone := by
    rw [ClassTable.get?_modify, hnone] at hget
    split at hget <;> exact nomatch hget
  fresh_state {other c} hget hnone := by
    rw [ClassTable.get?_modify, hnone] at hget
    split at hget <;> exact nomatch hget

theorem setState (table : ClassTable) (id : ClassId) (state : ClassState) :
    TableFrame [.state (table.nameOf id)] table (table.setState id state) := by
  refine of_modify (fun _ => rfl) fun c hget => ?_
  rw [ClassTable.nameOf_of_get? hget]
  exact ⟨rfl, rfl, fun _ => rfl, fun _ => rfl, by simp, by simp⟩

theorem transition (table : ClassTable) (id : ClassId) (source target : ClassState) :
    TableFrame [.state (table.nameOf id)] table (table.transition id source target).2 := by
  unfold ClassTable.transition
  split
  · exact setState table id target
  · exact refl _ table

theorem tag (table : ClassTable) (id : ClassId) (role : ClassRole) :
    TableFrame [.role (table.nameOf id)] table (table.tag id role).2 := by
  unfold ClassTable.tag
  split
  · refine of_modify (fun _ => rfl) fun c hget => ?_
    rw [ClassTable.nameOf_of_get? hget]
    exact ⟨rfl, rfl, by simp, fun _ => rfl, fun _ => Iff.rfl, fun _ h => h⟩
  · exact refl _ table

theorem setStatic (table : ClassTable) (id : ClassId) (key : FieldKey) (value : Value) :
    TableFrame [.statics (table.nameOf id)] table (table.setStatic id key value) := by
  refine of_modify (fun _ => rfl) fun c hget => ?_
  rw [ClassTable.nameOf_of_get? hget]
  exact ⟨rfl, rfl, fun _ => rfl, by simp, fun _ => Iff.rfl, fun _ h => h⟩

end TableFrame

-- ---------------------------------------------------------------------------
-- Objects
-- ---------------------------------------------------------------------------

/-- What happened to the objects. What arrays hold is not promised, since any code may write to
them. -/
structure HeapFrame (touched : List Aspect) (heap heap' : Heap) : Prop where
  get? : ∀ {id object}, heap.get? id = some object →
    ∃ object', heap'.get? id = some object' ∧ object'.type = object.type ∧
      (.object id ∉ touched → (∃ elements, object.body = .array elements) ∨ object' = object)

namespace HeapFrame

variable {heap heap' heap'' : Heap}

theorem refl (touched : List Aspect) (heap : Heap) : HeapFrame touched heap heap where
  get? hget := ⟨_, hget, rfl, fun _ => .inr rfl⟩

theorem trans (h : HeapFrame touched heap heap') (h' : HeapFrame touched' heap' heap'') :
    HeapFrame (touched ++ touched') heap heap'' where
  get? hget := by
    obtain ⟨object', hget', htype, hsame⟩ := h.get? hget
    obtain ⟨object'', hget'', htype', hsame'⟩ := h'.get? hget'
    refine ⟨object'', hget'', htype'.trans htype, fun hmem => ?_⟩
    rw [List.mem_append, not_or] at hmem
    rcases hsame hmem.1 with harray | rfl
    · exact .inl harray
    · exact hsame' hmem.2

theorem mono (hsub : touched ⊆ touched') (h : HeapFrame touched heap heap') :
    HeapFrame touched' heap heap' where
  get? hget := by
    obtain ⟨object', hget', htype, hsame⟩ := h.get? hget
    exact ⟨object', hget', htype, fun hmem => hsame fun hmem' => hmem (hsub hmem')⟩

/-- Objects that were not there do not count. -/
theorem of_fresh {id : ObjectId} (hfresh : heap.get? id = none)
    (h : HeapFrame (.object id :: touched) heap heap') : HeapFrame touched heap heap' where
  get? {other object} hget := by
    obtain ⟨object', hget', htype, hsame⟩ := h.get? hget
    refine ⟨object', hget', htype, fun hmem => hsame ?_⟩
    rw [List.mem_cons, not_or]
    refine ⟨fun heq => ?_, hmem⟩
    obtain rfl := Aspect.object.inj heq
    simp [hfresh] at hget

theorem alloc (heap : Heap) (object : Object) : HeapFrame [] heap (heap.alloc object).2 where
  get? hget := ⟨_, Heap.get?_alloc_of_some hget, rfl, fun _ => .inr rfl⟩

theorem setBody (heap : Heap) (id : ObjectId) (body : ObjectBody) :
    HeapFrame [.object id] heap (heap.setBody id body) where
  get? {other object} hget := by
    rw [Heap.get?_setBody, hget]
    split
    · rename_i hid
      subst hid
      exact ⟨_, rfl, rfl, fun hmem => absurd List.mem_cons_self hmem⟩
    · exact ⟨object, rfl, rfl, fun _ => .inr rfl⟩

/-- Writing to an array does not count. -/
theorem setArray {id : ObjectId} {elements : Array Value} (body : ObjectBody)
    (harray : (heap.get? id).map Object.body = some (.array elements)) :
    HeapFrame [] heap (heap.setBody id body) where
  get? {other object} hget := by
    rw [Heap.get?_setBody, hget]
    split
    · rename_i hid
      subst hid
      rw [hget] at harray
      exact ⟨_, rfl, rfl, fun _ => .inl ⟨elements, Option.some.inj harray⟩⟩
    · exact ⟨object, rfl, rfl, fun _ => .inr rfl⟩

end HeapFrame

-- ---------------------------------------------------------------------------
-- Strings and threads
-- ---------------------------------------------------------------------------

/-- What happened to the canonical strings: they are still there, of the same class. -/
structure PoolFrame (pool pool' : StringPool) : Prop where
  stringClass : ∀ {type}, pool.stringClass = some type → pool'.stringClass = some type
  lookup : ∀ {units id}, pool.strings.lookup units = some id → pool'.strings.lookup units = some id

theorem PoolFrame.refl (pool : StringPool) : PoolFrame pool pool := ⟨id, id⟩

theorem PoolFrame.trans {pool pool' pool'' : StringPool} (h : PoolFrame pool pool')
    (h' : PoolFrame pool' pool'') : PoolFrame pool pool'' :=
  ⟨fun hclass => h'.stringClass (h.stringClass hclass), fun hfind => h'.lookup (h.lookup hfind)⟩

/-- What happened to one thread. It may have been given a peer, if it had none. -/
structure BlockFrame (block block' : ThreadBlock) : Prop where
  name : block'.name = block.name
  handle : block'.handle = block.handle
  peer : ∀ {peer}, block.peer = some peer → block'.peer = some peer

theorem BlockFrame.refl (block : ThreadBlock) : BlockFrame block block := ⟨rfl, rfl, id⟩

theorem BlockFrame.trans {block block' block'' : ThreadBlock} (h : BlockFrame block block')
    (h' : BlockFrame block' block'') : BlockFrame block block'' :=
  ⟨h'.name.trans h.name, h'.handle.trans h.handle, fun hpeer => h'.peer (h.peer hpeer)⟩

/-- What happened to the threads. -/
structure ThreadsFrame (threads threads' : Array ThreadBlock) : Prop where
  get? : ∀ {index : Nat} {block}, threads[index]? = some block →
    ∃ block', threads'[index]? = some block' ∧ BlockFrame block block'

theorem ThreadsFrame.refl (threads : Array ThreadBlock) : ThreadsFrame threads threads :=
  ⟨fun hget => ⟨_, hget, .refl _⟩⟩

theorem ThreadsFrame.trans {threads threads' threads'' : Array ThreadBlock}
    (h : ThreadsFrame threads threads') (h' : ThreadsFrame threads' threads'') :
    ThreadsFrame threads threads'' where
  get? hget := by
    obtain ⟨block', hget', hframe⟩ := h.get? hget
    obtain ⟨block'', hget'', hframe'⟩ := h'.get? hget'
    exact ⟨block'', hget'', hframe.trans hframe'⟩

-- ---------------------------------------------------------------------------
-- Machines
-- ---------------------------------------------------------------------------

variable {σ : Type} {m m' m'' : Machine σ}

/-- What happened to a machine: it differs in what is touched, and in what is new. -/
structure Touches (touched : List Aspect) (m m' : Machine σ) : Prop where
  table : TableFrame touched m.table m'.table
  heap : HeapFrame touched m.heap m'.heap
  strings : PoolFrame m.strings m'.strings
  threads : ThreadsFrame m.threads m'.threads
  delegate : .delegate ∉ touched → m'.loader.delegate = m.loader.delegate
  wellKnown : .wellKnown ∉ touched → m'.wellKnown = m.wellKnown
  charset : .charset ∉ touched → m'.charset = m.charset
  journal : .journal ∉ touched → m'.journal = m.journal
  boot : .boot ∉ touched → m'.boot = m.boot
  /-- A start that has begun is never undone. -/
  started : m.boot ≠ .notBooted → m'.boot ≠ .notBooted
  delegateClass : m'.delegateClass = m.delegateClass

namespace Touches

theorem refl (m : Machine σ) : Touches touched m m where
  table := .refl _ _
  heap := .refl _ _
  strings := .refl _
  threads := .refl _
  delegate _ := rfl
  wellKnown _ := rfl
  charset _ := rfl
  journal _ := rfl
  boot _ := rfl
  started hboot := hboot
  delegateClass := rfl

theorem trans (h : Touches touched m m') (h' : Touches touched' m' m'') :
    Touches (touched ++ touched') m m'' := by
  have hsplit : ∀ {aspect}, aspect ∉ touched ++ touched' → aspect ∉ touched ∧ aspect ∉ touched' :=
    fun hmem => by rwa [List.mem_append, not_or] at hmem
  exact {
    table := h.table.trans h'.table
    heap := h.heap.trans h'.heap
    strings := h.strings.trans h'.strings
    threads := h.threads.trans h'.threads
    delegate := fun hmem => (h'.delegate (hsplit hmem).2).trans (h.delegate (hsplit hmem).1)
    wellKnown := fun hmem => (h'.wellKnown (hsplit hmem).2).trans (h.wellKnown (hsplit hmem).1)
    charset := fun hmem => (h'.charset (hsplit hmem).2).trans (h.charset (hsplit hmem).1)
    journal := fun hmem => (h'.journal (hsplit hmem).2).trans (h.journal (hsplit hmem).1)
    boot := fun hmem => (h'.boot (hsplit hmem).2).trans (h.boot (hsplit hmem).1)
    started := fun hboot => h'.started (h.started hboot)
    delegateClass := h'.delegateClass.trans h.delegateClass }

theorem mono (hsub : touched ⊆ touched') (h : Touches touched m m') : Touches touched' m m' where
  table := h.table.mono hsub
  heap := h.heap.mono hsub
  strings := h.strings
  threads := h.threads
  delegate hmem := h.delegate fun hmem' => hmem (hsub hmem')
  wellKnown hmem := h.wellKnown fun hmem' => hmem (hsub hmem')
  charset hmem := h.charset fun hmem' => hmem (hsub hmem')
  journal hmem := h.journal fun hmem' => hmem (hsub hmem')
  boot hmem := h.boot fun hmem' => hmem (hsub hmem')
  started := h.started
  delegateClass := h.delegateClass

/-- Two parts that touch nothing else than what is listed. -/
theorem trans_self (h : Touches touched m m') (h' : Touches touched m' m'') :
    Touches touched m m'' :=
  (h.trans h').mono (by simp)

/-- What is written to new objects does not count. -/
theorem of_fresh {id : ObjectId} (hfresh : m.heap.get? id = none)
    (h : Touches (.object id :: touched) m m') : Touches touched m m' where
  table := {
    get? := fun hget => by
      obtain ⟨c', hget', hframe⟩ := h.table.get? hget
      exact ⟨c', hget', hframe.name, hframe.kind, fun hmem => hframe.role (by simpa using hmem),
        fun hmem => hframe.statics (by simpa using hmem),
        fun hmem => hframe.busy (by simpa using hmem),
        fun hmem => hframe.initialized (by simpa using hmem)⟩
    find? := h.table.find?
    fresh_role := fun hget hnone hmem => h.table.fresh_role hget hnone (by simpa using hmem)
    fresh_state := fun hget hnone hmem => h.table.fresh_state hget hnone (by simpa using hmem) }
  heap := .of_fresh hfresh h.heap
  strings := h.strings
  threads := h.threads
  delegate hmem := h.delegate (by simpa using hmem)
  wellKnown hmem := h.wellKnown (by simpa using hmem)
  charset hmem := h.charset (by simpa using hmem)
  journal hmem := h.journal (by simpa using hmem)
  boot hmem := h.boot (by simpa using hmem)
  started := h.started
  delegateClass := h.delegateClass

/-- A change of the class table alone. -/
theorem withTable {table : ClassTable} (h : TableFrame touched m.table table) :
    Touches touched m (m.withTable table) :=
  { refl m with table := h }

/-- A change of the heap alone. -/
theorem withHeap {heap : Heap} (h : HeapFrame touched m.heap heap) :
    Touches touched m { m with heap } :=
  { refl m with heap := h }

end Touches

end ClassHost
