import ClassHost.ClassFile.Parser
import Mathlib.Algebra.Group.Nat.Defs
import Mathlib.Data.List.Forall2

/-!
# The layout of class files

What a class file consists of before any index in it has been followed, and the bytes that it is
written as: numbers most significant byte first, texts in modified UTF-8, every list with its length
in front. This is the other side of the parser, written down from the format and not from the
reader.

* `File.bytes` writes a file.
* `File.WellFormed` says what a file must be like to be written at all: its lengths fit the numbers
  that announce them, the slots of its pool are laid out and refer to each other as they should, and
  its other indices lead to entries of the right kind.
* `File.Resolves` relates a file to the class file that it describes, with all indices followed.
-/

namespace ClassHost

-- ---------------------------------------------------------------------------
-- Pools
-- ---------------------------------------------------------------------------

namespace ConstantPool

/-- The index leads to a text. -/
def IsUtf8 (pool : ConstantPool) (index : UInt16) : Prop :=
  ∃ text, pool.get index = .ok (.utf8 text)

/-- The index leads to a class entry. -/
def IsClass (pool : ConstantPool) (index : UInt16) : Prop :=
  ∃ name, pool.get index = .ok (.className name)

/-- Exactly the slots behind 64-bit numbers hold nothing. -/
structure Spaced (pool : ConstantPool) : Prop where
  first : pool.entries[0]? ≠ some .reserved
  after : ∀ i (hi : i < pool.entries.size),
    pool.entries[i + 1]? = some .reserved ↔ pool.entries[i].isWide = true

end ConstantPool

namespace Layout

-- ---------------------------------------------------------------------------
-- Parts
-- ---------------------------------------------------------------------------

structure Attribute where
  name : UInt16
  data : Bytes
  deriving Repr, DecidableEq

/-- A field or method. -/
structure Member where
  flags : AccessFlags
  name : UInt16
  descriptor : UInt16
  attributes : List Layout.Attribute
  deriving Repr, DecidableEq

/-- A class file whose indices stand for themselves. A super class of 0 is none. -/
structure File where
  minorVersion : UInt16
  majorVersion : UInt16
  pool : ConstantPool
  flags : AccessFlags
  thisClass : UInt16
  superClass : UInt16
  interfaces : List UInt16
  fields : List Layout.Member
  methods : List Layout.Member
  attributes : List Layout.Attribute
  deriving Repr, DecidableEq

-- ---------------------------------------------------------------------------
-- Bytes
-- ---------------------------------------------------------------------------

def u1 (n : UInt8) : Bytes := Bytes.bigEndian 1 n.toNat

def u2 (n : UInt16) : Bytes := Bytes.bigEndian 2 n.toNat

def u4 (n : UInt32) : Bytes := Bytes.bigEndian 4 n.toNat

def u8 (n : UInt64) : Bytes := Bytes.bigEndian 8 n.toNat

/-- A byte string with its length in front, a number of `width` bytes. -/
def measured (width : Nat) (data : Bytes) : Bytes :=
  Bytes.bigEndian width data.length ++ data

/-- Some parts in order, with their number in front. -/
def table {α : Type} (part : α → Bytes) (parts : List α) : Bytes :=
  Bytes.bigEndian 2 parts.length ++ parts.flatMap part

/-- A slot of the pool: a tag, and what belongs to an entry with the tag. A slot that holds nothing
is not written. -/
def constant : Constant → Bytes
  | .utf8 text => u1 1 ++ measured 2 (Text.ModifiedUtf8.encode text)
  | .integer value => u1 3 ++ u4 value.toUInt32
  | .float bits => u1 4 ++ u4 bits
  | .long value => u1 5 ++ u8 value.toUInt64
  | .double bits => u1 6 ++ u8 bits
  | .className name => u1 7 ++ u2 name
  | .string text => u1 8 ++ u2 text
  | .field member => u1 9 ++ memberRef member
  | .method member => u1 10 ++ memberRef member
  | .interfaceMethod member => u1 11 ++ memberRef member
  | .nameAndType pair => u1 12 ++ (u2 pair.name ++ u2 pair.descriptor)
  | .methodHandle kind target => u1 15 ++ (u1 kind ++ u2 target)
  | .methodType descriptor => u1 16 ++ u2 descriptor
  | .dynamic site => u1 17 ++ dynamicRef site
  | .invokeDynamic site => u1 18 ++ dynamicRef site
  | .moduleName name => u1 19 ++ u2 name
  | .packageName name => u1 20 ++ u2 name
  | .reserved => []
where
  memberRef (ref : MemberRef) : Bytes := u2 ref.className ++ u2 ref.nameAndType
  dynamicRef (ref : DynamicRef) : Bytes := u2 ref.bootstrap ++ u2 ref.nameAndType

/-- The slots, behind a number that is one more than there are. -/
def constantPool (pool : ConstantPool) : Bytes :=
  Bytes.bigEndian 2 (pool.size + 1) ++ pool.entries.toList.flatMap constant

def Attribute.bytes (a : Layout.Attribute) : Bytes := u2 a.name ++ measured 4 a.data

def Member.bytes (m : Layout.Member) : Bytes :=
  [u2 m.flags, u2 m.name, u2 m.descriptor, table Attribute.bytes m.attributes].flatten

def File.bytes (file : File) : Bytes :=
  [u4 0xCAFEBABE, u2 file.minorVersion, u2 file.majorVersion, constantPool file.pool,
    u2 file.flags, u2 file.thisClass, u2 file.superClass, table u2 file.interfaces,
    table Member.bytes file.fields, table Member.bytes file.methods,
    table Attribute.bytes file.attributes].flatten

-- ---------------------------------------------------------------------------
-- Well-formed files
-- ---------------------------------------------------------------------------

/-- Few enough parts to count them, each of which is good. -/
structure Listed {α : Type} (good : α → Prop) (parts : List α) : Prop where
  count : parts.length < 2 ^ 16
  good : ∀ part ∈ parts, good part

structure Attribute.WellFormed (pool : ConstantPool) (a : Layout.Attribute) : Prop where
  name : pool.IsUtf8 a.name
  length : a.data.length < 2 ^ 32

structure Member.WellFormed (pool : ConstantPool) (m : Layout.Member) : Prop where
  name : pool.IsUtf8 m.name
  descriptor : pool.IsUtf8 m.descriptor
  attributes : Listed (Attribute.WellFormed pool) m.attributes

structure File.WellFormed (file : File) : Prop where
  slots : file.pool.size ≤ 65534
  spaced : file.pool.Spaced
  texts : ∀ text, .utf8 text ∈ file.pool.entries → (Text.ModifiedUtf8.encode text).length < 2 ^ 16
  checked : file.pool.check = .ok ()
  thisClass : file.pool.IsClass file.thisClass
  superClass : file.superClass ≠ 0 → file.pool.IsClass file.superClass
  interfaces : Listed file.pool.IsClass file.interfaces
  fields : Listed (Member.WellFormed file.pool) file.fields
  methods : Listed (Member.WellFormed file.pool) file.methods
  attributes : Listed (Attribute.WellFormed file.pool) file.attributes

-- ---------------------------------------------------------------------------
-- What files describe
-- ---------------------------------------------------------------------------

/-- The same bytes under the name that the index stands for. -/
structure Attribute.Resolves (pool : ConstantPool) (a : Layout.Attribute)
    (found : ClassHost.Attribute) : Prop where
  name : pool.utf8 a.name = .ok found.name
  data : found.data = a.data

/-- The same member by its names, without the flags that are not `known`. -/
structure Member.Resolves (pool : ConstantPool) (known : AccessFlags) (m : Layout.Member)
    (found : ClassHost.Member) : Prop where
  flags : found.flags = m.flags &&& known
  name : pool.utf8 m.name = .ok found.name
  descriptor : pool.utf8 m.descriptor = .ok found.descriptor
  attributes : List.Forall₂ (Attribute.Resolves pool) m.attributes found.attributes

/-- The super class by its name, or none. -/
def ResolvesSuper (pool : ConstantPool) (index : UInt16) : Option String → Prop
  | none => index = 0
  | some name => index ≠ 0 ∧ pool.className index = .ok name

/-- The class file with the same versions, the same pool slot by slot, and all else in order under
the names that the indices stand for. Of each set of flags, only unknown ones are missing. -/
structure File.Resolves (file : File) (found : ClassFile) : Prop where
  minorVersion : found.minorVersion = file.minorVersion
  majorVersion : found.majorVersion = file.majorVersion
  pool : found.pool = file.pool
  flags : found.flags = file.flags &&& .knownOfClass
  thisClass : file.pool.className file.thisClass = .ok found.thisClass
  superClass : ResolvesSuper file.pool file.superClass found.superClass
  interfaces : List.Forall₂ (fun index name => file.pool.className index = .ok name)
    file.interfaces found.interfaces
  fields : List.Forall₂ (Member.Resolves file.pool .knownOfField) file.fields found.fields
  methods : List.Forall₂ (Member.Resolves file.pool .knownOfMethod) file.methods found.methods
  attributes : List.Forall₂ (Attribute.Resolves file.pool) file.attributes found.attributes

end Layout

end ClassHost
