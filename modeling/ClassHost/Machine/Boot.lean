import ClassHost.Machine.Request

/-!
# Bringing the core library up

A start loads and initialises the classes that everything else depends on, makes the objects that
stand for the main thread and its groups, puts overrides in place and lets the library's own
`System` class set itself up. Only the first attempt does anything, and later steps rely on all
earlier ones, so any failure is fatal.

`bootSequence` is the whole sequence, made of the parts before it; `booting` guards it with the boot
state.
-/

namespace ClassHost.Procedure

variable {σ α : Type}

/-! ## Steps that blame a class -/

/-- Turns a failure into one that ends the start. -/
def orFatal (blame : Throwable → Fatal) (procedure : Procedure σ Throwable α) :
    Procedure σ Fatal α :=
  ExceptT.adapt blame procedure

/-- Loads a class that has to be there. -/
def loadRequired (name : String) : Procedure σ Fatal ClassId := do
  let some type ← orFatal (.load name) (load name) | throw (.classNotFound name)
  return type

def initialized (thread : ThreadId) (type : ClassId) : Procedure σ Fatal Unit := do
  let m ← observe
  orFatal (.initialization (m.className type)) (initClass thread type)

/-- Loads and initialises a class that has to be there. -/
def require (thread : ThreadId) (name : String) : Procedure σ Fatal ClassId := do
  let type ← loadRequired name
  initialized thread type
  return type

/-- Makes an instance; a failure is blamed on the class. -/
def newObject (type : ClassId) : Procedure σ Fatal ObjectId := do
  let m ← observe
  orFatal (.load (m.className type)) (newInstance type)

/-- Writes a field; a failure is blamed on the object's class. -/
def setObjectField (object : ObjectId) (key : FieldKey) (value : Value) :
    Procedure σ Fatal Unit := do
  let m ← observe
  orFatal (.load (m.heap.classNameOf m.table object)) (setField object key value)

def internRequired (text : String) : Procedure σ Fatal ObjectId :=
  orFatal (fun cause => .internal (.interning text cause)) (intern text)

/-- A method that a class has to declare. -/
def declared (kind : MethodKind) (type : ClassId) (key : MethodKey) :
    Procedure σ Fatal MethodRef := do
  let m ← observe
  match m.table.method? kind type key with
  | some method => return method
  | none => throw (.missingMethod (m.className type) key)

/-- Invokes a method for the start's own sake. -/
def invokeRequired (thread : ThreadId) (method : MethodRef) (arguments : List Value) :
    Procedure σ Fatal Unit := do
  let m ← observe
  let _ ← orFatal (.invocation (m.className method.declaring) method.key)
    (invoke thread method arguments)

/-- Calls a method that a class has to declare. The arguments are made once it is known. -/
def callDeclared (thread : ThreadId) (kind : MethodKind) (type : ClassId) (key : MethodKey)
    (arguments : Procedure σ Fatal (List Value)) : Procedure σ Fatal Unit := do
  let method ← declared kind type key
  invokeRequired thread method (← arguments)

/-! ## Keys -/

/-- A constructor with these parameters. -/
def constructorKey (parameters : List FieldType) : MethodKey :=
  ⟨"<init>", ⟨parameters, .base .void⟩⟩

/-- The constructor of the outermost thread group. -/
def systemGroupConstructor : MethodKey := constructorKey []

/-- The constructor of a thread group below another one. -/
def groupConstructor : MethodKey :=
  constructorKey [.object "java/lang/Void", .object CoreName.threadGroup, .object CoreName.string]

/-- The constructor of a thread in a group. -/
def threadConstructor : MethodKey :=
  constructorKey [.object CoreName.threadGroup, .object CoreName.string]

/-- The constructor of the delegate, which takes the program's arguments. -/
def delegateConstructor : MethodKey := constructorKey [.array (.object CoreName.string)]

/-- The method by which the library's `System` class sets itself up. -/
def systemSetup : MethodKey := ⟨"initializeSystemClass", ⟨[], .base .void⟩⟩

/-- The handle in a thread's peer. -/
def handleField : FieldKey := ⟨"eetop", .base .long⟩

/-- The priority in a thread's peer. -/
def priorityField : FieldKey := ⟨"priority", .base .int⟩

/-- The group in a thread's peer. -/
def groupField : FieldKey := ⟨"group", .object CoreName.threadGroup⟩

/-- Whether class objects cache what reflection finds. -/
def useCachesField : FieldKey := ⟨"useCaches", .base .boolean⟩

/-- The charset used when none is given. -/
def defaultCharsetField : FieldKey := ⟨"defaultCharset", .object CoreName.charset⟩

/-- The name of the main thread and of its group, inside the program. -/
def mainName : String := "main"

/-! ## The sequence -/

def tagAll (role : ClassRole) : List ClassId → Procedure σ Fatal Unit
  | [] => return
  | type :: types => do
    let _ ← access (.tag type role)
    tagAll role types

/-- Loads and initialises the well-known classes, and binds canonical strings to theirs. -/
def findWellKnown (thread : ThreadId) : Procedure σ Fatal WellKnown := do
  let classObject ← require thread CoreName.classObject
  let object ← require thread CoreName.object
  let string ← require thread CoreName.string
  orFatal (.load CoreName.string) (bindStrings string)
  return {
    object, classObject, string
    cloneable := ← require thread CoreName.cloneable
    serializable := ← require thread CoreName.serializable
    nullPointerException := ← require thread CoreName.nullPointerException
    arrayIndexOutOfBoundsException := ← require thread CoreName.arrayIndexOutOfBoundsException
    classNotFoundException := ← require thread CoreName.classNotFoundException
    internalError := ← require thread CoreName.internalError
    inputOutputException := ← require thread CoreName.inputOutputException }

/-- Tags the well-known classes and keeps them. -/
def captureWellKnown (thread : ThreadId) : Procedure σ Fatal Unit := do
  let known ← findWellKnown thread
  tagAll .coreLibrary known.core
  tagAll .exception known.exceptions
  access (.setStatic known.classObject useCachesField (.int 0))
  if !(← upkeep (.capture known)) then throw (.internal .wellKnownAlreadyCaptured)

/-- Makes the peer of the thread that the start runs on. -/
def newPeer (thread : ThreadId) (threadType : ClassId) : Procedure σ Fatal ObjectId := do
  let peer ← newObject threadType
  let m ← observe
  let handle := ((m.thread? thread).map ThreadBlock.handle).getD 0
  setObjectField peer handleField (.long handle)
  setObjectField peer priorityField (.int normalPriority)
  orFatal (.load (m.className threadType)) (attachPeer thread peer)
  return peer

/-- The classes and objects that the main thread consists of. -/
structure MainThread where
  threadType : ClassId
  groupType : ClassId
  peer : ObjectId
  systemGroup : ObjectId
  mainGroup : ObjectId
  deriving Repr, DecidableEq

/-- Makes the peer of the thread and the groups around it. The peer refers to the main group
before that is constructed. -/
def newMainThread (thread : ThreadId) : Procedure σ Fatal MainThread := do
  let threadType ← require thread CoreName.thread
  let groupType ← require thread CoreName.threadGroup
  let peer ← newPeer thread threadType
  let systemGroup ← newObject groupType
  callDeclared thread .any groupType systemGroupConstructor (return [.object systemGroup])
  let mainGroup ← newObject groupType
  setObjectField peer groupField (.object mainGroup)
  return { threadType, groupType, peer, systemGroup, mainGroup }

/-- Claims the `System` class and initialises what it needs to set itself up. -/
def claimSystem (thread : ThreadId) : Procedure σ Fatal ClassId := do
  let type ← loadRequired CoreName.system
  let _ ← access (.tag type .coreLibrary)
  access (.setState type .beingInitialized)
  let _ ← require thread CoreName.inputStream
  let _ ← require thread CoreName.printStream
  let _ ← require thread CoreName.securityManager
  return type

/-- Constructs the main group, below the outermost one. -/
def constructMainGroup (thread : ThreadId) (main : MainThread) : Procedure σ Fatal Unit :=
  callDeclared thread .any main.groupType groupConstructor do
    let name ← internRequired mainName
    return [.object main.mainGroup, .null, .object main.systemGroup, .object name]

/-- Constructs the main thread, in the main group. -/
def constructMainThread (thread : ThreadId) (main : MainThread) : Procedure σ Fatal Unit :=
  callDeclared thread .any main.threadType threadConstructor do
    let name ← internRequired mainName
    return [.object main.peer, .object main.mainGroup, .object name]

/-- Every method of a module has to be declared by its class. -/
def checkDeclared (type : ClassId) : List (MethodKey × Override) → Procedure σ Fatal Unit
  | [] => return
  | (key, _) :: rest => do
    let _ ← declared .any type key
    checkDeclared type rest

/-- Puts modules of overrides in place, one after the other. -/
def installModules : List OverrideModule → Procedure σ Fatal Unit
  | [] => return
  | entry :: rest => do
    let type ← loadRequired entry.className
    checkDeclared type entry.methods
    upkeep (.install entry)
    installModules rest

/-- Sets the default charset and puts the overrides in place. -/
def applyOverrides (thread : ThreadId) : Procedure σ Fatal Unit := do
  let charsetType ← require thread CoreName.charset
  let utf8Type ← require thread CoreName.utf8
  let utf8 ← newObject utf8Type
  access (.setStatic charsetType defaultCharsetField (.object utf8))
  if !(← upkeep (.setCharset utf8)) then throw (.internal .charsetAlreadyInstalled)
  installModules OverrideModule.builtin

/-- Makes the loader's delegate, if there is a class for it. -/
def installDelegate (thread : ThreadId) (arguments : List String) : Procedure σ Fatal Unit := do
  let some name := (← observe).delegateClass | return
  let some type ← orFatal (.load name) (load name) | return
  initialized thread type
  let delegate ← newObject type
  let constructor ← declared .any type delegateConstructor
  let blame := Fatal.load ((← observe).className type)
  let array ← orFatal blame (newStringArray arguments)
  invokeRequired thread constructor [.object delegate, .object array]
  orFatal blame (setDelegate delegate)

/-- Classes that count as being initialised until the library has set itself up. -/
structure Claimed where
  system : ClassId
  securityDebug : ClassId
  deriving Repr, DecidableEq

/-- Steps 1 to 9 of a start, after which the main thread is constructed. -/
def layFoundation (thread : ThreadId) : Procedure σ Fatal Claimed := do
  -- 1. core classes
  captureWellKnown thread
  -- 2. thread classes, 3. the peer, 4. the outermost group, 5. the main group
  let main ← newMainThread thread
  -- 6. System counts as being initialised until step 11
  let system ← claimSystem thread
  -- 7. construct the main group
  constructMainGroup thread main
  -- 8. security logging counts as being initialised until step 12
  let securityDebug ← loadRequired CoreName.securityDebug
  access (.setState securityDebug .beingInitialized)
  -- 9. construct the main thread
  constructMainThread thread main
  return { system, securityDebug }

/-- Steps 10 to 12, after which the library is ready. -/
def finishLibrary (thread : ThreadId) (claimed : Claimed) : Procedure σ Fatal Unit := do
  -- 10. overrides
  applyOverrides thread
  -- 11. System sets itself up
  callDeclared thread .static claimed.system systemSetup (return [])
  access (.setState claimed.system .fullyInitialized)
  -- 12. security logging
  access (.setState claimed.securityDebug .fullyInitialized)

/-- The whole start, in thirteen steps. -/
def bootSequence (thread : ThreadId) (arguments : List String) : Procedure σ Fatal Unit := do
  finishLibrary thread (← layFoundation thread)
  -- 13. the delegate
  installDelegate thread arguments

/-- Starts the machine unless that has happened or is under way. A start that failed stays
failed. -/
def booting (thread : ThreadId) (arguments : List String) : Procedure σ Fatal Unit := do
  match (← observe).boot with
  | .failed => throw (.internal .earlierBootFailed)
  | .booting | .booted => return
  | .notBooted =>
    upkeep (.setBoot .booting)
    match ← outcome (bootSequence thread arguments) with
    | .ok () => upkeep (.setBoot .booted)
    | .error fatal =>
      upkeep (.setBoot .failed)
      throw fatal

end ClassHost.Procedure
