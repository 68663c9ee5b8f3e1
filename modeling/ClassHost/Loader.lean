import ClassHost.ClassFile.Parser
import ClassHost.ClassTable
import ClassHost.Fault
import ClassHost.LoadPlan

/-!
# Loading classes

A loader turns names into classes of its table. A name that is already there is not looked for
again; any other class is searched on the class path, and an array class is made from its element
once that has been loaded.

* `Loader.load` loads by name. `none` means that the class, or the component of an array, is not
  on the class path.
* `Loader.loadBytes` defines a class from bytes, whatever its name.
* `Loader.searched` lists the names that the class path was asked for.
-/

namespace ClassHost

/-- The classes of a loader, what it asked its class path for, and the object that stands for its
delegate. -/
structure Loader where
  table : ClassTable
  searched : Array String
  delegate : Option ObjectId
  deriving Repr, DecidableEq

/-- A step of loading, which may fail. What it did before a failure stands. -/
abbrev Loading := ExceptT Throwable (StateM Loader)

namespace Loader

def empty : Loader := ⟨.empty, #[], none⟩

/-- The place of a class that has been defined. -/
def find? (name : String) : Loading (Option ClassId) := do
  return (← get).table.find? name

/-- Adds a class unless the name is taken. -/
def define (name : String) (kind : ClassKind) : Loading ClassId :=
  modifyGet fun loader =>
    let (id, table) := loader.table.define name kind
    (id, { loader with table })

def search (finder : Finder) (name : String) : Loading (Option Located) := do
  modify fun loader => { loader with searched := loader.searched.push name }
  return finder name

/-- Reads a class file; `origin` says where it is from and `name` which class it should be. -/
def parse (name origin : String) (bytes : Bytes) : Loading ClassFile :=
  match ClassFile.parse bytes with
  | .ok file => pure file
  | .error fault => throw (.classFormat name (.unreadable origin fault))

/-- Loads a class that is no array from the class path. The file has to be of the class that was
asked for. -/
def loadInstances (finder : Finder) (name : String) : Loading (Option ClassId) := do
  let some found ← search finder name | return none
  let file ← parse name found.source.text found.bytes
  if file.thisClass ≠ name then throw (.classFormat name (.wrongName file.thisClass))
  return some (← define name (.instances file (some found.source)))

/-- Loads the component class of an array, unless it is there already. -/
def loadComponent (finder : Finder) (name : String) : Loading (Option ClassId) := do
  match ← find? name with
  | some id => return some id
  | none => loadInstances finder name

/-- Loads the levels of an array of objects, innermost first. -/
def loadObjectArray (finder : Finder) : ArrayPlan String → Loading (Option ClassId)
  | .last descriptor component => do
    match ← find? descriptor with
    | some id => return some id
    | none =>
      let some component ← loadComponent finder component | return none
      return some (← define descriptor (.objectArray ⟨1, .component component⟩))
  | .level descriptor inner => do
    match ← find? descriptor with
    | some id => return some id
    | none =>
      let some down ← loadObjectArray finder inner | return none
      return some (← define descriptor (.objectArray ⟨inner.dimension + 1, .down down⟩))

/-- Loads the levels of an array of primitives, innermost first. -/
def loadPrimitiveArray : ArrayPlan BaseType → Loading ClassId
  | .last descriptor component => do
    match ← find? descriptor with
    | some id => return id
    | none => define descriptor (.primitiveArray ⟨1, .component component⟩)
  | .level descriptor inner => do
    match ← find? descriptor with
    | some id => return id
    | none =>
      let down ← loadPrimitiveArray inner
      define descriptor (.primitiveArray ⟨inner.dimension + 1, .down down⟩)

/-- Loads what a plan asks for. -/
def loadPlan (finder : Finder) : LoadPlan → Loading (Option ClassId)
  | .instanceClass name => loadInstances finder name
  | .objectArray plan => loadObjectArray finder plan
  | .primitiveArray plan => do return some (← loadPrimitiveArray plan)

def load (finder : Finder) (name : String) : Loading (Option ClassId) := do
  match ← find? name with
  | some id => return some id
  | none =>
    match LoadPlan.resolve name with
    | .error error => throw (.descriptor error)
    | .ok plan => loadPlan finder plan

/-- What bytes without a name are called in messages. -/
def streamName : String := "<stream>"

/-- Defines a class from the bytes of its file. The name must not be taken. -/
def loadBytes (bytes : Bytes) : Loading ClassId := do
  let file ← parse streamName streamName bytes
  if (← find? file.thisClass).isSome then throw (.internal (.duplicateClass file.thisClass))
  define file.thisClass (.instances file none)

/-- Records the delegate, once. -/
def setDelegate (object : ObjectId) : Loading Unit := do
  if (← get).delegate.isSome then throw (.internal .delegateAlreadySet)
  modify fun loader => { loader with delegate := some object }

end Loader

end ClassHost
