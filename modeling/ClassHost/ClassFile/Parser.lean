import ClassHost.ClassFile.Basic

/-!
# Reading class files

A `Reader` consumes a byte string from the front and stops at the first fault. Readers are put
together in the order in which a class file lays its parts out, so that of two faults in a file the
one further to the front is reported; faults between the pool's entries are looked for once the
whole pool has been read.

The entry point is `ClassFile.parse`.
-/

namespace ClassHost

/-- Takes something off the front of a byte string, or stops with a fault. -/
abbrev Reader := StateT Bytes (Except ClassFileFault)

namespace Reader

/-- Exactly `count` bytes. -/
def bytes (count : Nat) : Reader Bytes := fun input =>
  match input.split count with
  | .ok result => .ok result
  | .error fault => .error (.endOfInput fault)

/-- A big-endian number of `width` bytes. -/
def word (width : Nat) : Reader Nat := do
  return (← bytes width).toNat

def u8 : Reader UInt8 := do return (← word 1).toUInt8

def u16 : Reader UInt16 := do return (← word 2).toUInt16

def u32 : Reader UInt32 := do return (← word 4).toUInt32

def u64 : Reader UInt64 := do return (← word 8).toUInt64

/-- What a lookup in the pool finds. -/
def lookUp {α : Type} (found : Except PoolFault α) : Reader α :=
  match found with
  | .ok a => pure a
  | .error fault => throw (.pool fault)

/-- Reads `count` things, behind those in `read`. -/
def times {α : Type} (reader : Reader α) : Nat → Array α → Reader (Array α)
  | 0, read => pure read
  | count + 1, read => do
    let a ← reader
    times reader count (read.push a)

/-- A list with its length, of two bytes, in front. -/
def counted {α : Type} (reader : Reader α) : Reader (List α) := do
  let count ← u16
  return (← times reader count.toNat #[]).toList

end Reader

namespace ClassFile

open Reader

/-- A class and a name with descriptor. -/
def readMemberRef : Reader MemberRef := do
  return ⟨← u16, ← u16⟩

/-- A bootstrap method and a name with descriptor. -/
def readDynamicRef : Reader DynamicRef := do
  return ⟨← u16, ← u16⟩

/-- A text of modified UTF-8 with its length, of two bytes, in front. -/
def readText : Reader String := do
  let length ← u16
  match Text.ModifiedUtf8.decode (← bytes length.toNat) with
  | .ok text => pure text
  | .error fault => throw (.text fault)

/-- The rest of an entry whose tag has been read. -/
def readConstantOf : ConstantTag → Reader Constant
  | .className => do return .className (← u16)
  | .field => do return .field (← readMemberRef)
  | .method => do return .method (← readMemberRef)
  | .interfaceMethod => do return .interfaceMethod (← readMemberRef)
  | .string => do return .string (← u16)
  | .integer => do return .integer (← u32).toInt32
  | .float => do return .float (← u32)
  | .long => do return .long (← u64).toInt64
  | .double => do return .double (← u64)
  | .nameAndType => do return .nameAndType ⟨← u16, ← u16⟩
  | .utf8 => do return .utf8 (← readText)
  | .methodHandle => do return .methodHandle (← u8) (← u16)
  | .methodType => do return .methodType (← u16)
  | .dynamic => do return .dynamic (← readDynamicRef)
  | .invokeDynamic => do return .invokeDynamic (← readDynamicRef)
  | .moduleName => do return .moduleName (← u16)
  | .packageName => do return .packageName (← u16)

/-- One entry of the pool. -/
def readConstant : Reader Constant := do
  let tag ← u8
  match ConstantTag.ofByte? tag with
  | some tag => readConstantOf tag
  | none => throw (.unknownTag tag)

/-- Entries for `slots` more slots. A 64-bit number takes two, also when only one is left. -/
def readSlots : Nat → ConstantPool → Reader ConstantPool
  | 0, pool => pure pool
  | slots + 1, pool => do
    let entry ← readConstant
    if entry.isWide then
      match slots with
      | 0 => pure ((pool.push entry).push .reserved)
      | slots + 1 => readSlots slots ((pool.push entry).push .reserved)
    else readSlots slots (pool.push entry)

/-- The pool, whose count is one more than its slots. -/
def readPool : Reader ConstantPool := do
  let count ← u16
  if count = 0 then throw .emptyPoolCount
  readSlots (count.toNat - 1) .empty

def readAttribute (pool : ConstantPool) : Reader Attribute := do
  let name ← lookUp (pool.utf8 (← u16))
  let length ← u32
  return ⟨name, ← bytes length.toNat⟩

/-- One field or method, of whose flags only `known` ones are kept. -/
def readMember (pool : ConstantPool) (known : AccessFlags) : Reader Member := do
  let flags ← u16
  let name ← lookUp (pool.utf8 (← u16))
  let descriptor ← lookUp (pool.utf8 (← u16))
  return ⟨flags &&& known, name, descriptor, ← counted (readAttribute pool)⟩

/-- The super class, none for index 0. -/
def readSuperClass (pool : ConstantPool) : Reader (Option String) := do
  let index ← u16
  if index = 0 then return none
  return some (← lookUp (pool.className index))

/-- The number that every class file starts with. -/
def magic : UInt32 := 0xCAFEBABE

/-- All parts of a class file, in order. -/
def read : Reader ClassFile := do
  let found ← u32
  if found ≠ magic then throw (.badMagic found)
  let minorVersion ← u16
  let majorVersion ← u16
  let pool ← readPool
  lookUp pool.check
  let flags ← u16
  let thisClass ← lookUp (pool.className (← u16))
  let superClass ← readSuperClass pool
  let interfaces ← counted (do lookUp (pool.className (← u16)))
  let fields ← counted (readMember pool .knownOfField)
  let methods ← counted (readMember pool .knownOfMethod)
  let attributes ← counted (readAttribute pool)
  return ⟨minorVersion, majorVersion, pool, flags &&& .knownOfClass, thisClass, superClass,
    interfaces, fields, methods, attributes⟩

/-- The class file that a whole byte string holds. -/
def parse (input : Bytes) : Except ClassFileFault ClassFile :=
  match read.run input with
  | .error fault => .error fault
  | .ok (file, []) => .ok file
  | .ok (_, _ :: _) => .error .trailingBytes

end ClassFile

end ClassHost
