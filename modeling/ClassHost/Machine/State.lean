import ClassHost.Loader
import ClassHost.Object.StringPool
import ClassHost.Override
import ClassHost.Threads
import ClassHost.WellKnown

/-!
# The machine

Everything that a running program can see or change, as one value: the class path and the loader,
the heap and the canonical strings, overrides, threads, and how far the start has got. The engine
that executes methods comes from outside; its own memory `σ` is kept here beside the rest, since
its calls and the machine's steps interleave.

The journal lists the calls to the engine and their returns.
-/

namespace ClassHost

/-- How far a start has got. -/
inductive BootState where
  | notBooted
  | booting
  | booted
  | failed
  deriving Repr, DecidableEq, Inhabited

structure Call where
  thread : ThreadId
  method : MethodRef
  arguments : List Value
  deriving Repr, DecidableEq

/-- What the journal records. -/
inductive Event where
  /-- The engine received a call. -/
  | called (call : Call)
  /-- The engine returned from its latest open call, with or without success. -/
  | returned (succeeded : Bool)
  deriving Repr, DecidableEq

/-- The state of a machine whose engine keeps a memory of type `σ`. -/
structure Machine (σ : Type) where
  classPath : Finder
  loader : Loader
  heap : Heap
  strings : StringPool
  overrides : Overrides
  threads : Array ThreadBlock
  registry : Registry σ
  boot : BootState
  wellKnown : Option WellKnown
  charset : Option ObjectId
  /-- The class whose instance becomes the loader's delegate at the end of a start, if it is on
  the class path. -/
  delegateClass : Option String
  journal : Array Event
  memory : σ

namespace Machine

variable {σ : Type}

/-- The delegate class unless another one, or none, is asked for. -/
def defaultDelegateClass : String := "kate/loader/BootstrapDelegate"

/-- A machine on which nothing has happened yet. -/
def new (classPath : Finder) (delegateClass : Option String) (memory : σ) : Machine σ where
  classPath := classPath
  loader := .empty
  heap := .empty
  strings := .empty
  overrides := .empty
  threads := #[]
  registry := .empty
  boot := .notBooted
  wellKnown := none
  charset := none
  delegateClass := delegateClass
  journal := #[]
  memory := memory

/-! ## What a machine shows -/

def table (m : Machine σ) : ClassTable := m.loader.table

/-- The machine with another class table. -/
def withTable (m : Machine σ) (table : ClassTable) : Machine σ :=
  { m with loader := { m.loader with table } }

def className (m : Machine σ) (type : ClassId) : String := m.table.nameOf type

def thread? (m : Machine σ) (thread : ThreadId) : Option ThreadBlock := m.threads[thread.index]?

end Machine

/-! ## What changes a machine -/

/-- A change of a machine that may fail. What it did before a failure stands. -/
abbrev Change (σ ε α : Type) := ExceptT ε (StateM (Machine σ)) α

namespace Machine

variable {σ : Type}

/-- A step of loading. -/
def loading {α : Type} (step : Finder → Loading α) : Change σ Throwable α := fun m =>
  let (result, loader) := step m.classPath m.loader
  (result, { m with loader })

def load (name : String) : Change σ Throwable (Option ClassId) :=
  loading fun finder => Loader.load finder name

/-- Defines a class from the bytes of its file. -/
def loadBytes (bytes : Bytes) : Change σ Throwable ClassId :=
  loading fun _ => Loader.loadBytes bytes

def setDelegate (object : ObjectId) : Change σ Throwable Unit :=
  loading fun _ => Loader.setDelegate object

def allocating (make : Machine σ → Except Throwable (ObjectId × Heap)) :
    Change σ Throwable ObjectId := do
  match make (← get) with
  | .ok (id, heap) =>
    modify fun m => { m with heap }
    return id
  | .error error => throw error

def newInstance (type : ClassId) : Change σ Throwable ObjectId :=
  allocating fun m => m.heap.newInstance m.table type

def newArray (type : ClassId) (length : Nat) : Change σ Throwable ObjectId :=
  allocating fun m => m.heap.newArray m.table type length

def writing (write : Machine σ → Except Throwable Heap) : Change σ Throwable Unit := do
  match write (← get) with
  | .ok heap => modify fun m => { m with heap }
  | .error error => throw error

def setField (object : ObjectId) (key : FieldKey) (value : Value) : Change σ Throwable Unit :=
  writing fun m => m.heap.setField m.table object key value

def setElement (object : ObjectId) (index : Nat) (value : Value) : Change σ Throwable Unit :=
  writing fun m => m.heap.setElement m.table object index value

def intern (text : String) : Change σ Throwable ObjectId := do
  let m ← get
  match m.strings.intern m.heap text with
  | .ok (id, strings, heap) =>
    set { m with strings, heap }
    return id
  | .error error => throw error

def bindStrings (type : ClassId) : Change σ Throwable Unit := do
  match (← get).strings.bind type with
  | .ok strings => modify fun m => { m with strings }
  | .error error => throw error

/-- Fills the elements of an array from `index` on with canonical strings. -/
def fillStrings (array : ObjectId) : Nat → List String → Change σ Throwable Unit
  | _, [] => return
  | index, text :: texts => do
    setElement array index (.object (← intern text))
    fillStrings array (index + 1) texts

/-- An array of the canonical strings of some texts. -/
def newStringArray (texts : List String) : Change σ Throwable ObjectId := do
  let some type ← load CoreName.stringArray | throw (.internal .stringArrayNotLoaded)
  let array ← newArray type texts.length
  fillStrings array 0 texts
  return array

/-- The field in which an exception keeps its message. -/
def messageField : FieldKey := ⟨"detailMessage", .object CoreName.string⟩

/-- Makes the exception object for an error. This needs the exception classes that a start
captures. -/
def raise (error : RaisedError) : Change σ Throwable RuntimeException := do
  let m ← get
  let some known := m.wellKnown | throw (.internal (.raisedBeforeBoot error))
  let some type := known.exception? m.table error.className
    | throw (.internal (.unknownException error))
  let object ← newInstance type
  setField object messageField (.object (← intern error.message))
  return ⟨error.message, type, .object object, []⟩

def attachPeer (thread : ThreadId) (peer : ObjectId) : Change σ Throwable Unit := do
  match (← get).thread? thread with
  | none => return
  | some block =>
    match block.attach peer with
    | .ok block => modify fun m => { m with threads := m.threads.setIfInBounds thread.index block }
    | .error error => throw error

/-- Makes the control block of a new thread. Handles count from 1. -/
def newThread (name : String) : StateM (Machine σ) ThreadId :=
  modifyGet fun m =>
    (⟨m.threads.size⟩,
      { m with threads := m.threads.push ⟨name, Int64.ofNat (m.threads.size + 1), none⟩ })

/-- Puts a module of overrides in place. -/
def install (entry : OverrideModule) (m : Machine σ) : Machine σ :=
  { m with overrides := m.overrides.install entry }

/-- Every worker ends. -/
def settle (m : Machine σ) : Machine σ :=
  let (registry, memory) := m.registry.settle m.memory
  { m with registry, memory }

def note (event : Event) (m : Machine σ) : Machine σ :=
  { m with journal := m.journal.push event }

end Machine

end ClassHost
