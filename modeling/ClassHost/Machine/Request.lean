import ClassHost.Machine.Program
import ClassHost.Machine.State

/-!
# What can be asked of a machine

* An `Access` is carried out at once and runs no code of the program.
* A `Request` is what an engine may ask for: any access, and the operations that run code in their
  turn.
* A `Step` is what the machine's own procedures may ask for: any request, a call to the engine, and
  the upkeep that no engine has a hand in.

Engines are guests: programs over requests. The machine's procedures are programs over steps.
-/

namespace ClassHost

/-- Operations that run no code. -/
inductive Access (σ : Type) where
  | observe
  | remember (memory : σ)
  | setClassPath (classPath : Finder)
  | load (name : String)
  | loadBytes (bytes : Bytes)
  | setDelegate (object : ObjectId)
  | setState (type : ClassId) (state : ClassState)
  | transition (type : ClassId) (source target : ClassState)
  | tag (type : ClassId) (role : ClassRole)
  | setStatic (type : ClassId) (key : FieldKey) (value : Value)
  | newInstance (type : ClassId)
  | newArray (type : ClassId) (length : Nat)
  | newStringArray (texts : List String)
  | intern (text : String)
  | bindStrings (type : ClassId)
  | setField (object : ObjectId) (key : FieldKey) (value : Value)
  | setElement (object : ObjectId) (index : Nat) (value : Value)
  | raise (error : RaisedError)
  | installOverrides
  | newThread (name : String)
  | attachPeer (thread : ThreadId) (peer : ObjectId)
  /-- Launches a worker beside everything else. -/
  | launch (worker : Worker σ)
  /-- Every worker launched so far ends. -/
  | settle

namespace Access

variable {σ : Type}

/-- What an access replies. -/
@[reducible] def Reply : Access σ → Type
  | observe => Machine σ
  | remember _ | setClassPath _ | setState _ _ | setStatic _ _ _ | installOverrides | launch _
  | settle => Unit
  | load _ => Except Throwable (Option ClassId)
  | loadBytes _ => Except Throwable ClassId
  | setDelegate _ | bindStrings _ | setField _ _ _ | setElement _ _ _ | attachPeer _ _ =>
    Except Throwable Unit
  | transition _ _ _ | tag _ _ => Bool
  | newInstance _ | newArray _ _ | newStringArray _ | intern _ => Except Throwable ObjectId
  | raise _ => Except Throwable RuntimeException
  | newThread _ => ThreadId

def apply : (access : Access σ) → StateM (Machine σ) access.Reply
  | observe => get
  | remember memory => modify fun m => { m with memory }
  | setClassPath classPath => modify fun m => { m with classPath }
  | load name => Machine.load name
  | loadBytes bytes => Machine.loadBytes bytes
  | setDelegate object => Machine.setDelegate object
  | setState type state => modify fun m => m.withTable (m.table.setState type state)
  | transition type source target =>
    modifyGet fun m =>
      let (moved, table) := m.table.transition type source target
      (moved, m.withTable table)
  | tag type role =>
    modifyGet fun m =>
      let (tagged, table) := m.table.tag type role
      (tagged, m.withTable table)
  | setStatic type key value => modify fun m => m.withTable (m.table.setStatic type key value)
  | newInstance type => Machine.newInstance type
  | newArray type length => Machine.newArray type length
  | newStringArray texts => Machine.newStringArray texts
  | intern text => Machine.intern text
  | bindStrings type => Machine.bindStrings type
  | setField object key value => Machine.setField object key value
  | setElement object index value => Machine.setElement object index value
  | raise error => Machine.raise error
  | installOverrides => modify fun m => OverrideModule.builtin.foldl (fun m entry => m.install entry) m
  | newThread name => Machine.newThread name
  | attachPeer thread peer => Machine.attachPeer thread peer
  | launch worker => modify fun m => { m with registry := m.registry.launch worker }
  | settle => modify Machine.settle

end Access

/-- The class that a program starts with. -/
inductive EntryClass where
  | named (name : String)
  | ofBytes (bytes : Bytes)
  deriving Repr, DecidableEq

/-- What an engine may ask for. -/
inductive Request (σ : Type) where
  | access (access : Access σ)
  /-- Runs the initialiser of a class, after that of its super class. -/
  | initClass (thread : ThreadId) (type : ClassId)
  | invoke (thread : ThreadId) (method : MethodRef) (arguments : List Value)
  /-- Brings the core library up. -/
  | boot (thread : ThreadId) (arguments : List String)
  /-- Runs a whole program on a main thread of its own. -/
  | supervise (entry : EntryClass) (arguments : List String)
  /-- Unwinds the thread. There is no reply. -/
  | panic

/-- What a request replies. -/
@[reducible] def Request.Reply {σ : Type} : Request σ → Type
  | access op => op.Reply
  | initClass _ _ => Except Throwable Unit
  | invoke _ _ _ => Except Throwable (Option Value)
  | boot _ _ => Except Fatal Unit
  | supervise _ _ => Except Fatal Unit
  | panic => Empty

/-- Changes that only the machine's own procedures make. -/
inductive Upkeep where
  | note (event : Event)
  | setBoot (state : BootState)
  /-- Keeps the well-known classes, once. -/
  | capture (known : WellKnown)
  /-- Sets the default charset, once. -/
  | setCharset (charset : ObjectId)
  | install (entry : OverrideModule)
  deriving Repr, DecidableEq

namespace Upkeep

/-- Whether the change was made. -/
@[reducible] def Reply : Upkeep → Type
  | note _ | setBoot _ | install _ => Unit
  | capture _ | setCharset _ => Bool

def apply {σ : Type} : (upkeep : Upkeep) → StateM (Machine σ) upkeep.Reply
  | note event => modify (Machine.note event)
  | setBoot state => modify fun m => { m with boot := state }
  | capture known =>
    modifyGet fun m =>
      if m.wellKnown.isSome then (false, m) else (true, { m with wellKnown := some known })
  | setCharset charset =>
    modifyGet fun m =>
      if m.charset.isSome then (false, m) else (true, { m with charset := some charset })
  | install entry => modify (Machine.install entry)

end Upkeep

/-- What the machine's own procedures may ask for. -/
inductive Step (σ : Type) where
  | request (request : Request σ)
  | callEngine (call : Call)
  | upkeep (upkeep : Upkeep)

/-- What a step replies. -/
@[reducible] def Step.Reply {σ : Type} : Step σ → Type
  | request op => op.Reply
  | callEngine _ => Except Throwable (Option Value)
  | upkeep op => op.Reply

def Step.call (σ : Type) (step : Step σ) : Program (Step σ) Step.Reply step.Reply :=
  Program.call step

/-- Code that runs on a machine from outside. -/
abbrev Guest (σ α : Type) := Program (Request σ) Request.Reply α

def Guest.access {σ : Type} (access : Access σ) : Guest σ access.Reply :=
  Program.ask (Request.access access) Program.done

/-- Executes methods. What it does on the way is up to it. -/
structure Engine (σ : Type) where
  respond : Call → Guest σ (Except Throwable (Option Value))

/-- Code of the machine itself, which may fail. -/
abbrev Procedure (σ ε α : Type) := ExceptT ε (Program (Step σ) Step.Reply) α

namespace Procedure

variable {σ ε α : Type}

/-- Asks for an access that cannot fail. -/
def access (access : Access σ) : Procedure σ ε access.Reply :=
  ExceptT.lift (Step.call σ (.request (.access access)))

/-- Asks for a change that only procedures make. -/
def upkeep (upkeep : Upkeep) : Procedure σ ε upkeep.Reply :=
  ExceptT.lift (Step.call σ (.upkeep upkeep))

def observe : Procedure σ ε (Machine σ) := access .observe

def load (name : String) : Procedure σ Throwable (Option ClassId) :=
  ExceptT.mk (Step.call σ (.request (.access (.load name))))

def loadBytes (bytes : Bytes) : Procedure σ Throwable ClassId :=
  ExceptT.mk (Step.call σ (.request (.access (.loadBytes bytes))))

def setDelegate (object : ObjectId) : Procedure σ Throwable Unit :=
  ExceptT.mk (Step.call σ (.request (.access (.setDelegate object))))

def bindStrings (type : ClassId) : Procedure σ Throwable Unit :=
  ExceptT.mk (Step.call σ (.request (.access (.bindStrings type))))

def newInstance (type : ClassId) : Procedure σ Throwable ObjectId :=
  ExceptT.mk (Step.call σ (.request (.access (.newInstance type))))

def newStringArray (texts : List String) : Procedure σ Throwable ObjectId :=
  ExceptT.mk (Step.call σ (.request (.access (.newStringArray texts))))

def intern (text : String) : Procedure σ Throwable ObjectId :=
  ExceptT.mk (Step.call σ (.request (.access (.intern text))))

def setField (object : ObjectId) (key : FieldKey) (value : Value) : Procedure σ Throwable Unit :=
  ExceptT.mk (Step.call σ (.request (.access (.setField object key value))))

def attachPeer (thread : ThreadId) (peer : ObjectId) : Procedure σ Throwable Unit :=
  ExceptT.mk (Step.call σ (.request (.access (.attachPeer thread peer))))

def raise (error : RaisedError) : Procedure σ Throwable RuntimeException :=
  ExceptT.mk (Step.call σ (.request (.access (.raise error))))

def initClass (thread : ThreadId) (type : ClassId) : Procedure σ Throwable Unit :=
  ExceptT.mk (Step.call σ (.request (.initClass thread type)))

def invoke (thread : ThreadId) (method : MethodRef) (arguments : List Value) :
    Procedure σ Throwable (Option Value) :=
  ExceptT.mk (Step.call σ (.request (.invoke thread method arguments)))

def boot (thread : ThreadId) (arguments : List String) : Procedure σ Fatal Unit :=
  ExceptT.mk (Step.call σ (.request (.boot thread arguments)))

def callEngine (call : Call) : Procedure σ Throwable (Option Value) :=
  ExceptT.mk (Step.call σ (.callEngine call))

/-- What a procedure ends with, as a value. -/
def outcome (procedure : Procedure σ ε α) {ε' : Type} : Procedure σ ε' (Except ε α) :=
  ExceptT.lift procedure.run

end Procedure

end ClassHost
