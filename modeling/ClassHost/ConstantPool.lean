import ClassHost.Text.Quoted
import ClassHost.Decimal.Shortest

/-!
# The constant pool

The pool of a class file holds its literals and the names of everything it refers to. Entries refer
to each other by index, from 1; a 64-bit number takes two slots, the second of which holds nothing.

* `ConstantPool.get`, `utf8`, `className` and `nameAndType` follow an index to an entry of a kind.
* `ConstantPool.check` accepts a pool whose entries all refer to entries of the right kind, and
  reports the first one that does not.
* `Constant.text` shows an entry in messages.
-/

namespace ClassHost

/-- The kinds of entry that a class file can hold. -/
inductive ConstantTag where
  | className
  | field
  | method
  | interfaceMethod
  | string
  | integer
  | float
  | long
  | double
  | nameAndType
  | utf8
  | methodHandle
  | methodType
  | dynamic
  | invokeDynamic
  | moduleName
  | packageName
  deriving Repr, DecidableEq

/-- The kind that a tag byte announces. -/
def ConstantTag.ofByte? (byte : UInt8) : Option ConstantTag :=
  match byte.toNat with
  | 1 => some utf8
  | 3 => some integer
  | 4 => some float
  | 5 => some long
  | 6 => some double
  | 7 => some className
  | 8 => some string
  | 9 => some field
  | 10 => some method
  | 11 => some interfaceMethod
  | 12 => some nameAndType
  | 15 => some methodHandle
  | 16 => some methodType
  | 17 => some dynamic
  | 18 => some invokeDynamic
  | 19 => some moduleName
  | 20 => some packageName
  | _ => none

/-- A byte that announces no kind of entry. -/
def ConstantTag.unknownMessage (byte : UInt8) : String :=
  toString byte.toNat ++ " is an unknown constant tag"

/-- A field or method of a class. -/
structure MemberRef where
  className : UInt16
  nameAndType : UInt16
  deriving Repr, DecidableEq

/-- The name and the descriptor of a member. -/
structure NameAndType where
  name : UInt16
  descriptor : UInt16
  deriving Repr, DecidableEq

/-- A constant or call site computed by a bootstrap method. -/
structure DynamicRef where
  bootstrap : UInt16
  nameAndType : UInt16
  deriving Repr, DecidableEq

/-- One slot of the pool. Floating point numbers are kept as their bits. -/
inductive Constant where
  | className (name : UInt16)
  | field (member : MemberRef)
  | method (member : MemberRef)
  | interfaceMethod (member : MemberRef)
  | string (text : UInt16)
  | integer (value : Int32)
  | float (bits : UInt32)
  | long (value : Int64)
  | double (bits : UInt64)
  | nameAndType (pair : NameAndType)
  | utf8 (text : String)
  | methodHandle (kind : UInt8) (target : UInt16)
  | methodType (descriptor : UInt16)
  | dynamic (site : DynamicRef)
  | invokeDynamic (site : DynamicRef)
  | moduleName (name : UInt16)
  | packageName (name : UInt16)
  /-- The second slot of a 64-bit number. -/
  | reserved
  deriving Repr, DecidableEq, Inhabited

namespace Constant

/-- Entries that take two slots. -/
def isWide : Constant → Bool
  | long _ | double _ => true
  | _ => false

/-- Numbers in messages have an exponent from 10¹⁶ on and below 10⁻⁴. -/
def numberStyle : Decimal.Style := ⟨-4, 16⟩

/-- A record in messages: its name and its numbered parts. -/
def record (name : String) (parts : List (String × Nat)) : String :=
  name ++ " \x7b " ++
    String.intercalate ", " (parts.map fun part => part.1 ++ ": " ++ toString part.2) ++ " \x7d"

def text : Constant → String
  | className name => record "Class" [("name", name.toNat)]
  | field member => "Field(" ++ memberText member ++ ")"
  | method member => "Method(" ++ memberText member ++ ")"
  | interfaceMethod member => "InterfaceMethod(" ++ memberText member ++ ")"
  | string index => record "String" [("string", index.toNat)]
  | integer value => "Integer(" ++ toString value.toInt ++ ")"
  | float bits => "Float(" ++ numberStyle.text .single bits.toNat ++ ")"
  | long value => "Long(" ++ toString value.toInt ++ ")"
  | double bits => "Double(" ++ numberStyle.text .double bits.toNat ++ ")"
  | nameAndType pair =>
    "NameAndType(" ++
      record "ConstantNameAndType" [("name", pair.name.toNat),
        ("descriptor", pair.descriptor.toNat)] ++ ")"
  | utf8 value => "Utf8(" ++ Text.quoted value ++ ")"
  | methodHandle kind target =>
    record "MethodHandle" [("kind", kind.toNat), ("index", target.toNat)]
  | methodType descriptor => record "MethodType" [("descriptor", descriptor.toNat)]
  | dynamic site => "Dynamic(" ++ dynamicText site ++ ")"
  | invokeDynamic site => "InvokeDynamic(" ++ dynamicText site ++ ")"
  | moduleName name => record "Module" [("name", name.toNat)]
  | packageName name => record "Package" [("name", name.toNat)]
  | reserved => "Reserved"
where
  memberText (member : MemberRef) : String :=
    record "ConstantMember" [("class", member.className.toNat),
      ("name_and_type", member.nameAndType.toNat)]
  dynamicText (site : DynamicRef) : String :=
    record "ConstantDynamic" [("method_index", site.bootstrap.toNat),
      ("name_and_type", site.nameAndType.toNat)]

end Constant

/-- Kinds of entry that a reference can ask for. -/
inductive WantedConstant where
  | utf8
  | className
  | nameAndType
  deriving Repr, DecidableEq

def WantedConstant.text : WantedConstant → String
  | utf8 => "Utf8"
  | className => "Class"
  | nameAndType => "NameAndType"

/-- Why an index does not lead to what it should. -/
inductive PoolFault where
  | zeroIndex
  | outOfRange (index size : Nat)
  | unexpected (wanted : WantedConstant) (index : UInt16) (found : Constant)
  deriving Repr, DecidableEq

def PoolFault.message : PoolFault → String
  | zeroIndex => "constant pool index 0 is never valid"
  | outOfRange index size => s!"constant pool index {index} out of range ({size})"
  | unexpected wanted index found =>
    "expected " ++ wanted.text ++ " @ " ++ toString index.toNat ++ ", got " ++ found.text

/-- The slots in order; the first has index 1. -/
structure ConstantPool where
  entries : Array Constant
  deriving Repr, DecidableEq, Inhabited

namespace ConstantPool

def empty : ConstantPool := ⟨#[]⟩

def push (pool : ConstantPool) (entry : Constant) : ConstantPool :=
  ⟨pool.entries.push entry⟩

def size (pool : ConstantPool) : Nat := pool.entries.size

/-- The slot of an index. -/
def get (pool : ConstantPool) (index : UInt16) : Except PoolFault Constant :=
  if index = 0 then .error .zeroIndex
  else
    match pool.entries[index.toNat - 1]? with
    | some entry => .ok entry
    | none => .error (.outOfRange index.toNat pool.size)

/-- The text at an index. -/
def utf8 (pool : ConstantPool) (index : UInt16) : Except PoolFault String := do
  match ← pool.get index with
  | .utf8 text => .ok text
  | found => .error (.unexpected .utf8 index found)

/-- The name of the class at an index. -/
def className (pool : ConstantPool) (index : UInt16) : Except PoolFault String := do
  match ← pool.get index with
  | .className name => pool.utf8 name
  | found => .error (.unexpected .className index found)

/-- The name and descriptor at an index. -/
def nameAndType (pool : ConstantPool) (index : UInt16) : Except PoolFault NameAndType := do
  match ← pool.get index with
  | .nameAndType pair => .ok pair
  | found => .error (.unexpected .nameAndType index found)

/-- Accepts an entry whose own references lead to entries of the right kind. A method handle may
refer to any slot. -/
def checkEntry (pool : ConstantPool) : Constant → Except PoolFault Unit
  | .className index | .moduleName index | .packageName index | .string index
  | .methodType index => do
    let _ ← pool.utf8 index
  | .field member | .method member | .interfaceMethod member => do
    let _ ← pool.className member.className
    let _ ← pool.nameAndType member.nameAndType
  | .nameAndType pair => do
    let _ ← pool.utf8 pair.name
    let _ ← pool.utf8 pair.descriptor
  | .dynamic site | .invokeDynamic site => do
    let _ ← pool.nameAndType site.nameAndType
  | .methodHandle _ target => do
    let _ ← pool.get target
  | .integer _ | .float _ | .long _ | .double _ | .utf8 _ | .reserved => .ok ()

/-- Accepts a pool whose entries all pass, and reports the first that does not. -/
def check (pool : ConstantPool) : Except PoolFault Unit :=
  pool.entries.toList.forM pool.checkEntry

end ConstantPool

end ClassHost
