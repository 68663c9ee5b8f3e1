import ClassHost.ClassTable
import ClassHost.Fault
import ClassHost.Text.Units

/-!
# The heap

Objects in the order of their creation. An object is an instance with fields, an array with
elements, or a string, whose units and hash never change. Objects are never removed, so a
reference stays good.

Operations that can fail report a `Throwable` and leave the heap as it is.
-/

namespace ClassHost

/-- What an object holds. -/
inductive ObjectBody where
  | plain (fields : List (FieldKey × Value))
  | array (elements : Array Value)
  | string (units : List UInt16) (hash : Int32)
  deriving Repr, DecidableEq

structure Object where
  type : ClassId
  body : ObjectBody
  deriving Repr, DecidableEq

namespace Object

/-- The text of a string object, if its units are well formed. -/
def text? (object : Object) : Option String :=
  match object.body with
  | .string units _ => Text.ofUnits? units
  | _ => none

def length? (object : Object) : Option Nat :=
  match object.body with
  | .array elements => some elements.size
  | _ => none

def elements (object : Object) : List Value :=
  match object.body with
  | .array elements => elements.toList
  | _ => []

/-- A field that has been written. -/
def field? (object : Object) (key : FieldKey) : Option Value :=
  match object.body with
  | .plain fields => fields.lookup key
  | _ => none

def element? (object : Object) (index : Nat) : Option Value :=
  match object.body with
  | .array elements => elements[index]?
  | _ => none

end Object

structure Heap where
  objects : Array Object
  deriving Repr, DecidableEq

namespace Heap

def empty : Heap := ⟨#[]⟩

/-- The object that a reference leads to. -/
def get? (heap : Heap) (id : ObjectId) : Option Object := heap.objects[id.index]?

def alloc (heap : Heap) (object : Object) : ObjectId × Heap :=
  (⟨heap.objects.size⟩, ⟨heap.objects.push object⟩)

def setBody (heap : Heap) (id : ObjectId) (body : ObjectBody) : Heap :=
  ⟨heap.objects.modify id.index fun object => { object with body }⟩

def newString (heap : Heap) (type : ClassId) (units : List UInt16) : ObjectId × Heap :=
  heap.alloc ⟨type, .string units (Text.hash units)⟩

/-- A new instance without fields. -/
def newInstance (heap : Heap) (table : ClassTable) (type : ClassId) :
    Except Throwable (ObjectId × Heap) :=
  if ((table.get? type).map LoadedClass.isArray).getD false then
    .error (.internal (.arrayInstance (table.nameOf type)))
  else .ok (heap.alloc ⟨type, .plain []⟩)

/-- What the slots of a new array hold; nothing for a class that is no array class. -/
def initialElement? : ClassKind → Option Value
  | .instances _ _ => none
  | .objectArray _ => some .null
  | .primitiveArray ⟨_, .component type⟩ => some (.default type)
  | .primitiveArray ⟨_, .down _⟩ => some .null

def newArray (heap : Heap) (table : ClassTable) (type : ClassId) (length : Nat) :
    Except Throwable (ObjectId × Heap) :=
  match ((table.get? type).map LoadedClass.kind).bind initialElement? with
  | some value => .ok (heap.alloc ⟨type, .array (Array.replicate length value)⟩)
  | none => .error (.internal (.notAnArrayClass (table.nameOf type)))

def classNameOf (heap : Heap) (table : ClassTable) (id : ObjectId) : String :=
  ((heap.get? id).map fun object => table.nameOf object.type).getD ""

def setField (heap : Heap) (table : ClassTable) (id : ObjectId) (key : FieldKey) (value : Value) :
    Except Throwable Heap :=
  match (heap.get? id).map Object.body with
  | some (.plain fields) => .ok (heap.setBody id (.plain (storeField fields key value)))
  | _ => .error (.internal (.fieldOfNonInstance key (heap.classNameOf table id)))

def setElement (heap : Heap) (table : ClassTable) (id : ObjectId) (index : Nat) (value : Value) :
    Except Throwable Heap :=
  match (heap.get? id).map Object.body with
  | some (.array elements) =>
    if index < elements.size then .ok (heap.setBody id (.array (elements.setIfInBounds index value)))
    else .error (.internal (.indexOutOfBounds index elements.size))
  | _ => .error (.internal (.notAnArray (heap.classNameOf table id)))

end Heap

end ClassHost
