import ClassHost.Archive.ExtraField

/-!
# The directory of an archive

An archive ends with a directory of its entries and an end record that says where the directory
starts and how many entries it has. Where numbers outgrow the end record, a wide end record and a
locator for it stand in front.

Anything may come before the archive or after it, and a comment may look like an end record. So end
records are tried from the last to the first until one leads to a directory that can be read
(`readDirectory?`). Bytes in front of the archive move everything behind them, so what a record
points to is looked for from the stated place on; how much further on it is found is the shift of
all other places.
-/

namespace ClassHost.Archive

/-- `PK\x05\x06`, in front of the end record. -/
def endMark : Nat := 0x06054B50

/-- `PK\x06\x07`, in front of the locator. -/
def locatorMark : Nat := 0x07064B50

/-- `PK\x06\x06`, in front of the wide end record. -/
def wideEndMark : Nat := 0x06064B50

/-- `PK\x01\x02`, in front of a directory entry. -/
def directoryMark : Nat := 0x02014B50

/-! ## End records -/

/-- What an end record, narrow or wide, says. -/
structure EndRecord where
  position : Nat
  /-- The number of the part of the archive that holds the record. -/
  part : Nat
  /-- The number of the part where the directory starts. -/
  directoryPart : Nat
  /-- How many entries are in this part. -/
  countHere : Nat
  /-- How many entries there are. -/
  count : Nat
  /-- Where the directory is said to start. -/
  directory : Nat
  deriving Repr, DecidableEq

/-- The end record at a position, if its comment fits. -/
def endRecordAt? (data : Array UInt8) (position : Nat) : Option EndRecord := do
  guard ((← littleEndian? data position 4) = endMark)
  let part ← littleEndian? data (position + 4) 2
  let directoryPart ← littleEndian? data (position + 6) 2
  let countHere ← littleEndian? data (position + 8) 2
  let count ← littleEndian? data (position + 10) 2
  let directory ← littleEndian? data (position + 16) 4
  let comment ← littleEndian? data (position + 20) 2
  guard (position + 22 + comment ≤ data.size)
  return ⟨position, part, directoryPart, countHere, count, directory⟩

/-- Whether numbers have outgrown an end record. -/
def EndRecord.isOutgrown (record : EndRecord) : Bool :=
  record.count = 0xFFFF || record.directory = 0xFFFFFFFF

/-- Says where the wide end record is. -/
structure Locator where
  position : Nat
  directoryPart : Nat
  /-- Where the wide end record is said to start. -/
  record : Nat
  /-- How many parts the archive has. -/
  parts : Nat
  deriving Repr, DecidableEq

/-- The locator in front of an end record. -/
def locatorBefore? (data : Array UInt8) (bound : Nat) : Option Locator := do
  guard (20 ≤ bound)
  let position := bound - 20
  guard ((← littleEndian? data position 4) = locatorMark)
  let directoryPart ← littleEndian? data (position + 4) 4
  let record ← littleEndian? data (position + 8) 8
  let parts ← littleEndian? data (position + 16) 4
  return ⟨position, directoryPart, record, parts⟩

/-- Bytes that a directory entry takes at least. -/
def entrySize : Nat := 46

/-- Bytes of a wide end record without what programs may add to it. -/
def wideEndSize : Nat := 56

/-- The wide end record at a position. It reaches up to its locator, agrees with it, and leaves
room for the entries it counts. -/
def wideEndAt? (data : Array UInt8) (locator : Locator) (position : Nat) : Option EndRecord := do
  guard ((← littleEndian? data position 4) = wideEndMark)
  let size ← littleEndian? data (position + 4) 8
  guard (wideEndSize ≤ size + 12 ∧ position + size + 12 = locator.position)
  let part ← littleEndian? data (position + 16) 4
  let directoryPart ← littleEndian? data (position + 20) 4
  let countHere ← littleEndian? data (position + 24) 8
  let count ← littleEndian? data (position + 32) 8
  let directory ← littleEndian? data (position + 48) 8
  guard (directoryPart = locator.directoryPart)
  guard (entrySize * count + directory ≤ position)
  return ⟨position, part, directoryPart, countHere, count, directory⟩

/-- The first wide end record from a place on, `count` places far. -/
def findWideEnd? (data : Array UInt8) (locator : Locator) (start : Nat) :
    Nat → Option EndRecord
  | 0 => none
  | count + 1 =>
    match wideEndAt? data locator start with
    | some record => some record
    | none => findWideEnd? data locator (start + 1) count

/-! ## Where the directory is -/

/-- Where a directory is and how many entries are to be read from it. -/
structure DirectoryPlace where
  /-- How much further on than stated everything is. -/
  shift : Nat
  start : Nat
  count : Nat
  deriving Repr, DecidableEq

/-- The place that an end record points to. An empty directory is where the record is; any other
starts with an entry. -/
def narrowPlace? (data : Array UInt8) (record : EndRecord) : Option DirectoryPlace := do
  guard (record.part = record.directoryPart)
  if record.count = 0 then
    let shift := record.position - record.directory
    return ⟨shift, record.directory + shift, record.countHere⟩
  else
    let start ← findMark? data directoryMark record.directory (record.position - record.directory)
    return ⟨start - record.directory, start, record.countHere⟩

/-- The place that a wide end record points to. Archives in several parts are not read, nor those
with more entries in this part than in all. -/
def widePlace? (data : Array UInt8) (locator : Locator) : Option DirectoryPlace := do
  guard (locator.parts ≤ 1)
  let record ← findWideEnd? data locator locator.record (locator.position - locator.record)
  guard (record.countHere ≤ record.count ∧ record.part = record.directoryPart)
  let shift := record.position - locator.record
  return ⟨shift, record.directory + shift, record.count⟩

/-- The place that the end record at a position leads to. -/
def directoryPlace? (data : Array UInt8) (position : Nat) : Option DirectoryPlace := do
  let record ← endRecordAt? data position
  let locator := if record.isOutgrown then locatorBefore? data position else none
  match locator with
  | some locator => widePlace? data locator
  | none => narrowPlace? data record

/-! ## Entries -/

/-- Only an entry whose fields say how it is encrypted may give this as its packing method. -/
def encryptedMethod : Nat := 99

/-- Reads `count` directory entries from `place` on. Everything in the archive is `shift` bytes
further on than the directory says. -/
def readEntries? (data : Array UInt8) (shift : Nat) : Nat → Nat → Option (List ArchiveEntry)
  | 0, _ => some []
  | count + 1, place => do
    guard ((← littleEndian? data place 4) = directoryMark)
    let flags ← littleEndian? data (place + 8) 2
    let method ← littleEndian? data (place + 10) 2
    let checksum ← littleEndian? data (place + 16) 4
    let packedSize ← littleEndian? data (place + 20) 4
    let size ← littleEndian? data (place + 24) 4
    let nameLength ← littleEndian? data (place + 28) 2
    let extraLength ← littleEndian? data (place + 30) 2
    let commentLength ← littleEndian? data (place + 32) 2
    let start ← littleEndian? data (place + 42) 4
    let nameEnd := place + entrySize + nameLength
    let extraEnd := nameEnd + extraLength
    let next := extraEnd + commentLength
    guard (next ≤ data.size)
    let rawName := (data.extract (place + entrySize) nameEnd).toList
    let extra := (data.extract nameEnd extraEnd).toList
    let entry : ArchiveEntry := {
      name := ArchiveEntry.decodeText flags rawName
      rawName
      comment := ArchiveEntry.decodeText flags (data.extract extraEnd next).toList
      flags, method, checksum, packedSize, size, start
      isProtected := false }
    let entry ← entry.withExtra? extra
    guard (entry.method ≠ encryptedMethod ∨ entry.isProtected)
    guard (entry.start + shift < 2 ^ 64)
    let rest ← readEntries? data shift count next
    return { entry with start := entry.start + shift } :: rest

/-- The entries of the last end record before `bound` that leads to a directory. -/
def readDirectory? (data : Array UInt8) : Nat → Option (List ArchiveEntry)
  | 0 => none
  | bound + 1 =>
    let entries := do
      let place ← directoryPlace? data bound
      readEntries? data place.shift place.count place.start
    match entries with
    | some entries => some entries
    | none => readDirectory? data bound

end ClassHost.Archive
