import ClassHost.Archive.Checksum
import ClassHost.Archive.Entry
import ClassHost.Archive.LittleEndian

/-!
# Extra fields

Behind the name of an entry the directory may keep fields that say more about it. Each begins with
its kind and its length. Some of them matter for finding and reading the entry:

* sizes and places too large for 32 bits,
* a name or a comment in Unicode, which holds only for the name or the comment it was made for,
* how the content is encrypted.

Two kinds of times are read only to see that they are well formed, and every other kind is skipped.

`ArchiveEntry.withExtra?` applies all fields of an entry. What is cut short ends the reading, and
what was read up to there counts. A field that contradicts itself leaves no entry.
-/

namespace ClassHost

/-- Why the reading of extra fields ends before their end. -/
inductive ExtraStop where
  | cut
  | contradiction
  deriving Repr, DecidableEq

/-- The entry as far as it is known, and the bytes not yet read. -/
structure ExtraState where
  entry : ArchiveEntry
  rest : Bytes

/-- Reads extra fields. Where it stops, what it learnt about the entry stays. -/
abbrev ExtraReader := ExceptT ExtraStop (StateM ExtraState)

namespace ExtraReader

def bytes (count : Nat) : ExtraReader Bytes := do
  let state ← get
  let front := state.rest.take count
  if front.length < count then throw .cut
  set { state with rest := state.rest.drop count }
  return front

def number (width : Nat) : ExtraReader Nat := do
  return Archive.littleEndian (← bytes width)

/-- Passes over bytes that have to be there. -/
def skip (count : Nat) : ExtraReader Unit := do
  let _ ← bytes count

/-- Insists on what a field has to fulfil. -/
def insist (condition : Bool) : ExtraReader Unit :=
  if condition then pure () else throw .contradiction

/-- The entry as far as it is known. -/
def entry : ExtraReader ArchiveEntry := return (← get).entry

/-- Adds to what is known. -/
def learn (f : ArchiveEntry → ArchiveEntry) : ExtraReader Unit :=
  modify fun state => { state with entry := f state.entry }

/-- Stands in a 32-bit number for one that does not fit. -/
def tooLarge : Nat := 0xFFFFFFFF

/-- Sizes and place in 64 bits. A field with room for the three of them gives all; a shorter one
gives those that did not fit. -/
def wideNumbers (length : Nat) : ExtraReader Unit := do
  let givesAll : Bool := 24 ≤ length
  let mut used := 0
  if givesAll || (← entry).size = tooLarge then
    let size ← number 8
    learn fun entry => { entry with size }
    used := used + 8
  if givesAll || (← entry).packedSize = tooLarge then
    let packedSize ← number 8
    learn fun entry => { entry with packedSize }
    used := used + 8
  if givesAll || (← entry).start = tooLarge then
    let start ← number 8
    learn fun entry => { entry with start }
    used := used + 8
  insist (used ≤ length)
  skip (length - used)

/-- The times of one file system: a reserved word, then a single attribute with three times of
eight bytes. -/
def fileTimes (length : Nat) : ExtraReader Unit := do
  insist (length = 32)
  skip 4
  insist ((← number 2) = 1)
  insist ((← number 2) = 24)
  skip 24

/-- How many of the lowest eight bits are set. -/
def bitCount (n : Nat) : Nat :=
  ((List.range 8).filter fun i => n.testBit i).length

/-- Times of four bytes, one for each flag that is set. In the directory the last modification may
be alone whatever the flags say. -/
def timestamps (length : Nat) : ExtraReader Unit := do
  let flags ← number 1
  insist (length = 5 || length = 1 + 4 * bitCount flags)
  skip (length - 1)

/-- A text in Unicode behind a version and the checksum of the bytes that it stands for. -/
def unicodeText (length : Nat) (plain : Bytes) : ExtraReader (Bytes × String) := do
  skip 1
  let checksum ← number 4
  insist (5 ≤ length)
  let raw ← bytes (length - 5)
  insist (checksum = (Archive.checksum plain).toNat)
  match String.fromUTF8? ⟨raw.toArray⟩ with
  | some text => return (raw, text)
  | none => throw .contradiction

/-- The mark of the one encryption scheme with a field, `AE`. -/
def encryptionVendor : Nat := 0x4541

/-- How the content is encrypted, and how it was packed before. -/
def encryption (length : Nat) : ExtraReader Unit := do
  insist (length = 7)
  let version ← number 2
  let vendor ← number 2
  let strength ← number 1
  let method ← number 2
  insist (vendor = encryptionVendor)
  insist (version = 1 || version = 2)
  insist (1 ≤ strength && strength ≤ 3)
  learn fun entry => { entry with isProtected := true, method }

/-- What is behind the length of a field. -/
def body (kind length : Nat) : ExtraReader Unit :=
  match kind with
  | 0x0001 => wideNumbers length
  | 0x000A => fileTimes length
  | 0x5455 => timestamps length
  | 0x6375 => do
    let (_, comment) ← unicodeText length (← entry).comment.toUTF8.toList
    learn fun entry => { entry with comment }
  | 0x7075 => do
    let (rawName, name) ← unicodeText length (← entry).rawName
    learn fun entry => { entry with rawName, name }
  | 0x9901 => encryption length
  | _ => skip length

/-- Fields up to the end of the bytes. Each takes at least four, so `fuel` may be their number. -/
def fields : Nat → ExtraReader Unit
  | 0 => pure ()
  | fuel + 1 => do
    if (← get).rest.isEmpty then return
    let kind ← number 2
    let length ← number 2
    body kind length
    fields fuel

end ExtraReader

/-- The entry with all that its extra fields say. -/
def ArchiveEntry.withExtra? (entry : ArchiveEntry) (extra : Bytes) : Option ArchiveEntry :=
  match (ExtraReader.fields extra.length).run ⟨entry, extra⟩ with
  | (.error .contradiction, _) => none
  | (_, state) => some state.entry

end ClassHost
