import ClassHost.Bytes
import ClassHost.ConstantPool
import ClassHost.Text.ModifiedUtf8

/-!
# Class files

A parsed class file: its pool, its flags with unknown bits dropped, and its members and attributes
with every name already looked up. Attributes keep their bytes; whoever executes the class decodes
them.
-/

namespace ClassHost

/-- Sets of access flags, one bit each. -/
abbrev AccessFlags := UInt16

namespace AccessFlags

/-- The bit of members that belong to the class and not to its instances. -/
def static : AccessFlags := 0x0008

/-- Public, final, super, interface, abstract, synthetic, annotation type, enum and module. -/
def knownOfClass : AccessFlags := 0xF631

/-- Public, private, protected, static, final, volatile, transient, synthetic and enum. -/
def knownOfField : AccessFlags := 0x50DF

/-- Public, private, protected, static, final, synchronized, bridge, varargs, native, abstract,
strict and synthetic. -/
def knownOfMethod : AccessFlags := 0x1DFF

/-- Whether the static bit is set. -/
def isStatic (flags : AccessFlags) : Bool := flags &&& static != 0

end AccessFlags

/-- A named block of bytes. -/
structure Attribute where
  name : String
  data : Bytes
  deriving Repr, DecidableEq

/-- A field or method that a class declares. -/
structure Member where
  flags : AccessFlags
  name : String
  descriptor : String
  attributes : List Attribute
  deriving Repr, DecidableEq

/-- A class as its file describes it. -/
structure ClassFile where
  minorVersion : UInt16
  majorVersion : UInt16
  pool : ConstantPool
  flags : AccessFlags
  thisClass : String
  superClass : Option String
  interfaces : List String
  fields : List Member
  methods : List Member
  attributes : List Attribute
  deriving Repr, DecidableEq

/-- The first member with a name and descriptor. -/
def Member.find? (members : List Member) (name descriptor : String) : Option Member :=
  members.find? fun member => member.name = name ∧ member.descriptor = descriptor

/-- The first attribute with a name. -/
def Attribute.find? (attributes : List Attribute) (name : String) : Option Attribute :=
  attributes.find? fun a => a.name = name

/-- Why bytes are no class file. -/
inductive ClassFileFault where
  | endOfInput (fault : EndOfInput)
  | badMagic (magic : UInt32)
  | emptyPoolCount
  | unknownTag (byte : UInt8)
  | text (fault : Text.ModifiedUtf8.Fault)
  | pool (fault : PoolFault)
  | trailingBytes
  deriving Repr, DecidableEq

/-- A number in messages, in hexadecimal. -/
def hexText (n : Nat) : String := "0x" ++ Text.hexDigits n

def Text.ModifiedUtf8.Fault.message : Text.ModifiedUtf8.Fault → String
  | .lead byte position =>
    "invalid modified utf8 lead byte " ++ hexText byte.toNat ++ " at " ++ toString position
  | .continuation position => "bad continuation byte at " ++ toString position
  | .loneSurrogate => "invalid utf-16: lone surrogate found"

def ClassFileFault.message : ClassFileFault → String
  | endOfInput fault => fault.message
  | badMagic magic => "invalid magic value '" ++ hexText magic.toNat ++ "'"
  | emptyPoolCount => "constant pool count must be at least 1"
  | unknownTag byte => ConstantTag.unknownMessage byte
  | text fault => fault.message
  | pool fault => fault.message
  | trailingBytes => "classfile has extra bytes at the end"

end ClassHost
