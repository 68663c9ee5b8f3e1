import ClassHost.ClassFile.Basic
import ClassHost.ClassPath
import ClassHost.Object.Value

/-!
# The class table

Every class that has been defined, in the order of definition. A class is known by its place in
the table; it has a kind, which never changes, and a state, a role and static fields, which do.

* `define` adds a class unless its name is taken.
* `find?` goes from names to places, `get?` from places to classes.
* `elementClass?` is the class one level inside an array class.
-/

namespace ClassHost

/-- How far a class has got. -/
inductive ClassState where
  | notLoaded
  | loaded
  | beingInitialized
  | fullyInitialized
  deriving Repr, DecidableEq, Inhabited

/-- What a class is to the machine. -/
inductive ClassRole where
  | ordinary
  | coreLibrary
  | exception
  deriving Repr, DecidableEq, Inhabited

/-- What an array class holds one level down. -/
inductive ArrayElement (Component : Type) where
  | component (type : Component)
  /-- The array class of one dimension less. -/
  | down (array : ClassId)
  deriving Repr, DecidableEq

/-- The shape of an array class. -/
structure ArrayShape (Component : Type) where
  dimension : Nat
  element : ArrayElement Component
  deriving Repr, DecidableEq

/-- What a class is made of. -/
inductive ClassKind where
  | instances (file : ClassFile) (source : Option Source)
  | objectArray (shape : ArrayShape ClassId)
  | primitiveArray (shape : ArrayShape BaseType)
  deriving Repr, DecidableEq

/-- A class in the table. `role` is none until the class is tagged. -/
structure LoadedClass where
  name : String
  kind : ClassKind
  state : ClassState
  role : Option ClassRole
  statics : List (FieldKey × Value)
  deriving Repr, DecidableEq

/-- Writes a field, in place of what it held before. -/
def storeField (fields : List (FieldKey × Value)) (key : FieldKey) (value : Value) :
    List (FieldKey × Value) :=
  (key, value) :: fields.filter fun field => field.1 ≠ key

namespace LoadedClass

/-- A class as it is when it has just been defined. -/
def ofKind (name : String) (kind : ClassKind) : LoadedClass :=
  ⟨name, kind, .loaded, none, []⟩

def isArray (c : LoadedClass) : Bool :=
  match c.kind with
  | .instances _ _ => false
  | .objectArray _ | .primitiveArray _ => true

/-- The number of dimensions of an array class. -/
def dimension? (c : LoadedClass) : Option Nat :=
  match c.kind with
  | .instances _ _ => none
  | .objectArray shape => some shape.dimension
  | .primitiveArray shape => some shape.dimension

/-- The class file of a class that is no array class. -/
def file? (c : LoadedClass) : Option ClassFile :=
  match c.kind with
  | .instances file _ => some file
  | .objectArray _ | .primitiveArray _ => none

/-- Where the class file was found. -/
def source? (c : LoadedClass) : Option Source :=
  match c.kind with
  | .instances _ source => source
  | .objectArray _ | .primitiveArray _ => none

/-- The name of the class that arrays extend. -/
def rootName : String := "java/lang/Object"

/-- The super class that the class file names; the root class for arrays. -/
def superName? (c : LoadedClass) : Option String :=
  match c.kind with
  | .instances file _ => file.superClass
  | .objectArray _ | .primitiveArray _ => some rootName

/-- Untagged classes are ordinary. -/
def roleOrOrdinary (c : LoadedClass) : ClassRole := c.role.getD .ordinary

/-- The flags of the first method with a key. -/
def methodFlags? (c : LoadedClass) (key : MethodKey) : Option AccessFlags :=
  match c.file? with
  | some file => (Member.find? file.methods key.name key.type.text).map Member.flags
  | none => none

end LoadedClass

/-- A method of a class. -/
structure MethodRef where
  declaring : ClassId
  key : MethodKey
  flags : AccessFlags
  deriving Repr, DecidableEq

/-- Which methods a lookup accepts. -/
inductive MethodKind where
  | any
  | static
  | nonStatic
  deriving Repr, DecidableEq

/-- Whether a method with these flags is of a kind. -/
def MethodKind.accepts : MethodKind → AccessFlags → Bool
  | any, _ => true
  | static, flags => flags.isStatic
  | nonStatic, flags => !flags.isStatic

/-- The classes in the order of their definition. -/
structure ClassTable where
  classes : Array LoadedClass
  deriving Repr, DecidableEq

namespace ClassTable

def empty : ClassTable := ⟨#[]⟩

def get? (table : ClassTable) (id : ClassId) : Option LoadedClass := table.classes[id.index]?

/-- The place of a name. -/
def find? (table : ClassTable) (name : String) : Option ClassId :=
  (table.classes.findIdx? fun c => c.name = name).map ClassId.mk

def nameOf (table : ClassTable) (id : ClassId) : String :=
  ((table.get? id).map LoadedClass.name).getD ""

/-- The state of a class; a place without a class is not loaded. -/
def stateOf (table : ClassTable) (id : ClassId) : ClassState :=
  ((table.get? id).map LoadedClass.state).getD .notLoaded

/-- Adds a class at the end. If the name is taken, the class that has it stands. -/
def define (table : ClassTable) (name : String) (kind : ClassKind) : ClassId × ClassTable :=
  match table.find? name with
  | some id => (id, table)
  | none => (⟨table.classes.size⟩, ⟨table.classes.push (.ofKind name kind)⟩)

def modify (table : ClassTable) (id : ClassId) (change : LoadedClass → LoadedClass) : ClassTable :=
  ⟨table.classes.modify id.index change⟩

def setState (table : ClassTable) (id : ClassId) (state : ClassState) : ClassTable :=
  table.modify id fun c => { c with state }

/-- Moves a class from one state to another, if it is in the first. -/
def transition (table : ClassTable) (id : ClassId) (source target : ClassState) :
    Bool × ClassTable :=
  if table.stateOf id = source then (true, table.setState id target) else (false, table)

/-- Gives a class a role. The first role stays. -/
def tag (table : ClassTable) (id : ClassId) (role : ClassRole) : Bool × ClassTable :=
  match (table.get? id).map LoadedClass.role with
  | some none => (true, table.modify id fun c => { c with role := some role })
  | _ => (false, table)

def setStatic (table : ClassTable) (id : ClassId) (key : FieldKey) (value : Value) : ClassTable :=
  table.modify id fun c => { c with statics := storeField c.statics key value }

def getStatic? (table : ClassTable) (id : ClassId) (key : FieldKey) : Option Value :=
  (table.get? id).bind fun c => c.statics.lookup key

/-- The class one level inside an array class, unless a primitive type is there. -/
def elementClass? (table : ClassTable) (id : ClassId) : Option ClassId :=
  match (table.get? id).map LoadedClass.kind with
  | some (.objectArray ⟨_, .component c⟩) => some c
  | some (.objectArray ⟨_, .down c⟩) => some c
  | some (.primitiveArray ⟨_, .down c⟩) => some c
  | _ => none

/-- The first method that a class declares with a key, if it is of the kind asked for. -/
def method? (table : ClassTable) (kind : MethodKind) (id : ClassId) (key : MethodKey) :
    Option MethodRef := do
  let flags ← (← table.get? id).methodFlags? key
  if kind.accepts flags then some ⟨id, key, flags⟩ else none

/-- A method in messages: its class and its key. -/
def methodText (table : ClassTable) (method : MethodRef) : String :=
  table.nameOf method.declaring ++ "." ++ method.key.text

end ClassTable

end ClassHost
