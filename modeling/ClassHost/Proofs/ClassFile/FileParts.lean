import ClassHost.Proofs.ClassFile.RoundTrip
import Mathlib.Data.List.Induction

/-!
# The parts of a file

An accepted file has a header of ten bytes, the last two of which are the count of its pool, then
the entries that fill the slots of the pool, and then everything else, which is read with the pool
at hand. `ClassFile.Parts` are these parts, and the bytes they make up are read part by part
(`Parts.run_read`), whether the pool passes its check or not. So the parser accepts exactly what has
parts with a pool that passes and a good rest: `parse_eq_ok_iff_parts`.

The other direction needs to know of a number that was read what bytes it was read off; there is
only one choice (`run_u16_ok`). Of an entry it is known from which tag on it was read
(`exists_tag`).
-/

namespace ClassHost

-- ---------------------------------------------------------------------------
-- Numbers and their bytes
-- ---------------------------------------------------------------------------

namespace Bytes

theorem toNat_lt (bytes : Bytes) : toNat bytes < 256 ^ bytes.length := by
  induction bytes using List.reverseRecOn with
  | nil => decide
  | append_singleton bytes b ih =>
    have hb : b.toNat < 256 := b.toNat_lt
    rw [toNat_append_singleton, List.length_append, List.length_singleton, Nat.pow_succ]
    omega

/-- A number says its bytes, if it is known how many there are. -/
theorem bigEndian_toNat (bytes : Bytes) : bigEndian bytes.length (toNat bytes) = bytes := by
  induction bytes using List.reverseRecOn with
  | nil => rfl
  | append_singleton bytes b ih =>
    have hb : b.toNat < 256 := b.toNat_lt
    have hfront : (toNat bytes * 256 + b.toNat) / 256 = toNat bytes := by omega
    have hlast : (toNat bytes * 256 + b.toNat).toUInt8 = b := by
      apply UInt8.toNat_inj.mp
      rw [Nat.toUInt8_eq, UInt8.toNat_ofNat']
      omega
    rw [toNat_append_singleton, List.length_append, List.length_singleton, bigEndian, hfront, hlast,
      ih]

end Bytes

namespace Reader

variable {input rest : Bytes}

/-- A number of a width is read off its big-endian bytes. -/
theorem run_word_ok {width n : Nat} (h : (word width).run input = .ok (n, rest)) :
    n < 256 ^ width ∧ input = Bytes.bigEndian width n ++ rest := by
  obtain ⟨front, hfront, rfl⟩ := run_map_ok h
  obtain ⟨rfl, rfl⟩ := run_bytes_ok hfront
  exact ⟨Bytes.toNat_lt front, by rw [Bytes.bigEndian_toNat]⟩

theorem run_u8_ok {n : UInt8} (h : u8.run input = .ok (n, rest)) :
    input = Layout.u1 n ++ rest := by
  obtain ⟨number, hnumber, rfl⟩ := run_map_ok h
  obtain ⟨hlt, rfl⟩ := run_word_ok hnumber
  rw [Layout.u1, Nat.toUInt8_eq, UInt8.toNat_ofNat_of_lt' hlt]

theorem run_u16_ok {n : UInt16} (h : u16.run input = .ok (n, rest)) :
    input = Layout.u2 n ++ rest := by
  obtain ⟨number, hnumber, rfl⟩ := run_map_ok h
  obtain ⟨hlt, rfl⟩ := run_word_ok hnumber
  rw [Layout.u2, Nat.toUInt16_eq, UInt16.toNat_ofNat_of_lt' hlt]

theorem run_u32_ok {n : UInt32} (h : u32.run input = .ok (n, rest)) :
    input = Layout.u4 n ++ rest := by
  obtain ⟨number, hnumber, rfl⟩ := run_map_ok h
  obtain ⟨hlt, rfl⟩ := run_word_ok hnumber
  rw [Layout.u4, Nat.toUInt32_eq, UInt32.toNat_ofNat_of_lt' hlt]

end Reader

-- ---------------------------------------------------------------------------
-- Entries and their tags
-- ---------------------------------------------------------------------------

/-- The tag of an entry. A slot that holds nothing has none. -/
def Constant.tag? : Constant → Option ConstantTag
  | .className _ => some .className
  | .field _ => some .field
  | .method _ => some .method
  | .interfaceMethod _ => some .interfaceMethod
  | .string _ => some .string
  | .integer _ => some .integer
  | .float _ => some .float
  | .long _ => some .long
  | .double _ => some .double
  | .nameAndType _ => some .nameAndType
  | .utf8 _ => some .utf8
  | .methodHandle _ _ => some .methodHandle
  | .methodType _ => some .methodType
  | .dynamic _ => some .dynamic
  | .invokeDynamic _ => some .invokeDynamic
  | .moduleName _ => some .moduleName
  | .packageName _ => some .packageName
  | .reserved => none

namespace ClassFile

open Reader

theorem tag_of_run {tag : ConstantTag} {entry : Constant} {input rest : Bytes}
    (h : (readConstantOf tag).run input = .ok (entry, rest)) : entry.tag? = some tag := by
  cases tag with
  | nameAndType | methodHandle =>
    obtain ⟨_, _, -, hsecond⟩ := run_bind_ok h
    obtain ⟨_, -, rfl⟩ := run_map_ok hsecond
    rfl
  | className | field | method | interfaceMethod | string | integer | float | long | double | utf8
  | methodType | dynamic | invokeDynamic | moduleName | packageName =>
    obtain ⟨_, -, rfl⟩ := run_map_ok h
    rfl

/-- An entry is read off the byte that announces it and what belongs to its kind. -/
theorem exists_tag {entry : Constant} {input rest : Bytes}
    (h : readConstant.run input = .ok (entry, rest)) :
    ∃ byte tag behind, input = Layout.u1 byte ++ behind ∧ ConstantTag.ofByte? byte = some tag ∧
      entry.tag? = some tag ∧ (readConstantOf tag).run behind = .ok (entry, rest) := by
  obtain ⟨byte, behind, hbyte, hentry⟩ := run_bind_ok h
  obtain rfl := run_u8_ok hbyte
  cases htag : ConstantTag.ofByte? byte with
  | none =>
    rw [htag] at hentry
    exact nomatch hentry
  | some tag =>
    rw [htag] at hentry
    exact ⟨byte, tag, behind, rfl, htag, tag_of_run hentry, hentry⟩

theorem PoolEntry.exists_tag (item : PoolEntry) :
    ∃ byte tag behind, item.bytes = Layout.u1 byte ++ behind ∧
      ConstantTag.ofByte? byte = some tag ∧ item.entry.tag? = some tag ∧
      (readConstantOf tag).run behind = .ok (item.entry, []) := by
  have hrun := item.reads.whole []
  rw [List.append_nil] at hrun
  exact ClassFile.exists_tag hrun

theorem PoolEntry.ne_reserved (item : PoolEntry) : item.entry ≠ .reserved := by
  obtain ⟨byte, tag, behind, -, -, htag, -⟩ := item.exists_tag
  intro h
  rw [h] at htag
  exact nomatch htag

-- ---------------------------------------------------------------------------
-- Parts
-- ---------------------------------------------------------------------------

/-- What is read once the pool has passed its check. -/
def readBehind (minorVersion majorVersion : UInt16) (pool : ConstantPool) : Reader ClassFile := do
  let flags ← u16
  let thisClass ← lookUp (pool.className (← u16))
  let superClass ← readSuperClass pool
  let interfaces ← counted (do lookUp (pool.className (← u16)))
  let fields ← counted (readMember pool .knownOfField)
  let methods ← counted (readMember pool .knownOfMethod)
  let attributes ← counted (readAttribute pool)
  return ⟨minorVersion, majorVersion, pool, flags &&& .knownOfClass, thisClass, superClass,
    interfaces, fields, methods, attributes⟩

/-- A file with as many entries as fill its pool, of which nothing else is known. -/
structure Parts where
  minorVersion : UInt16
  majorVersion : UInt16
  count : UInt16
  items : List PoolEntry
  behind : Bytes
  count_ne : count ≠ 0
  fills : Fills (count.toNat - 1) items

namespace Parts

/-- The bytes in front of the entries. -/
def header (parts : Parts) : Bytes :=
  [Layout.u4 magic, Layout.u2 parts.minorVersion, Layout.u2 parts.majorVersion,
    Layout.u2 parts.count].flatten

def bytes (parts : Parts) : Bytes := parts.header ++ (bytesOf parts.items ++ parts.behind)

def pool (parts : Parts) : ConstantPool := appendEntries .empty parts.items

theorem entries_pool (parts : Parts) : parts.pool.entries = (slotsOf parts.items).toArray := by
  simp [pool, appendEntries, ConstantPool.empty]

/-- Everything behind the pool, if the pool passes. -/
def rest (parts : Parts) : Reader ClassFile := do
  lookUp parts.pool.check
  readBehind parts.minorVersion parts.majorVersion parts.pool

/-- The parts are read in order. -/
theorem run_read (parts : Parts) : read.run parts.bytes = parts.rest.run parts.behind := by
  have hpool := Fills.reads_readPool parts.count_ne parts.fills
  rw [bytes, header]
  simp only [List.flatten_cons, List.flatten_nil, List.append_assoc, List.nil_append]
  rw [read, (reads_u32 magic).run_bind, if_neg (fun hne => hne rfl),
    (reads_u16 parts.minorVersion).run_bind, (reads_u16 parts.majorVersion).run_bind,
    ← List.append_assoc, hpool.run_bind]
  rfl

theorem parse_of_fault (parts : Parts) {fault : PoolFault} (h : parts.pool.check = .error fault) :
    parse parts.bytes = .error (.pool fault) := by
  rw [parse, run_read, rest, h]
  rfl

theorem parse_eq_ok_iff (parts : Parts) {file : ClassFile} :
    parse parts.bytes = .ok file ↔ parts.pool.check = .ok () ∧
      (readBehind parts.minorVersion parts.majorVersion parts.pool).run parts.behind =
        .ok (file, []) := by
  cases hcheck : parts.pool.check with
  | error fault =>
    rw [parts.parse_of_fault hcheck]
    exact ⟨nofun, fun h => nomatch h.1⟩
  | ok done =>
    rw [ClassFile.parse_eq_ok_iff, run_read, rest, hcheck]
    exact ⟨fun h => ⟨rfl, h⟩, fun h => h.2⟩

end Parts

/-- An accepted file has parts. -/
theorem exists_parts {input : Bytes} {file : ClassFile} (h : parse input = .ok file) :
    ∃ parts : Parts, parts.bytes = input := by
  obtain ⟨found, _, hfound, afterMagic⟩ := run_bind_ok (parse_eq_ok_iff.mp h)
  obtain rfl := run_u32_ok hfound
  dsimp only at afterMagic
  split at afterMagic
  · exact nomatch afterMagic
  · rename_i hmagic
    -- each header field that was read is the one the parts write back
    obtain rfl : found = magic := Decidable.of_not_not hmagic
    obtain ⟨minorVersion, _, hminor, afterMinor⟩ := run_bind_ok afterMagic
    obtain rfl := run_u16_ok hminor
    obtain ⟨majorVersion, _, hmajor, afterMajor⟩ := run_bind_ok afterMinor
    obtain rfl := run_u16_ok hmajor
    obtain ⟨pool, behind, hpool, -⟩ := run_bind_ok afterMajor
    obtain ⟨count, _, hcount, hslots⟩ := run_bind_ok hpool
    obtain rfl := run_u16_ok hcount
    split at hslots
    · exact nomatch hslots
    · rename_i hpositive
      obtain ⟨items, hfills, rfl, -⟩ := readSlots_run_iff.mp hslots
      refine ⟨⟨minorVersion, majorVersion, count, items, behind, hpositive, hfills⟩, ?_⟩
      simp [Parts.bytes, Parts.header]

/-- The pool is returned as it was read. -/
theorem pool_of_readBehind {minorVersion majorVersion : UInt16} {pool : ConstantPool}
    {input rest : Bytes} {file : ClassFile}
    (h : (readBehind minorVersion majorVersion pool).run input = .ok (file, rest)) :
    file.pool = pool := by
  obtain ⟨flags, _, -, h⟩ := run_bind_ok h
  obtain ⟨index, _, -, h⟩ := run_bind_ok h
  obtain ⟨thisClass, _, -, h⟩ := run_bind_ok h
  obtain ⟨superClass, _, -, h⟩ := run_bind_ok h
  obtain ⟨interfaces, _, -, h⟩ := run_bind_ok h
  obtain ⟨fields, _, -, h⟩ := run_bind_ok h
  obtain ⟨methods, _, -, h⟩ := run_bind_ok h
  obtain ⟨attributes, -, rfl⟩ := run_map_ok h
  rfl

/-- **Accepted files, part by part.** -/
theorem parse_eq_ok_iff_parts {input : Bytes} {file : ClassFile} :
    parse input = .ok file ↔ ∃ parts : Parts, parts.bytes = input ∧ parts.pool.check = .ok () ∧
      (readBehind parts.minorVersion parts.majorVersion parts.pool).run parts.behind =
        .ok (file, []) := by
  constructor
  · intro h
    obtain ⟨parts, rfl⟩ := exists_parts h
    exact ⟨parts, rfl, parts.parse_eq_ok_iff.mp h⟩
  · rintro ⟨parts, rfl, h⟩
    exact parts.parse_eq_ok_iff.mpr h

end ClassFile

end ClassHost
