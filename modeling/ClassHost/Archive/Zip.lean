import ClassHost.Archive.Directory
import ClassHost.Archive.Inflate

/-!
# Archives

* `Archive.ofBytes?` reads the directory of an archive. Nothing is an archive without one.
* `Archive.read?` gives the content of the last entry with a name, stored or deflated. An entry
  that is encrypted, packed in another way, broken off, or does not match its checksum has no
  content.
-/

namespace ClassHost

/-- The bytes of an archive and its directory. -/
structure Archive where
  data : Array UInt8
  entries : List ArchiveEntry

namespace Archive

/-- The archive in a byte string. -/
def ofBytes? (bytes : Bytes) : Option Archive := do
  let data := bytes.toArray
  let entries ← readDirectory? data data.size
  return ⟨data, entries⟩

/-- `PK\x03\x04`, in front of an entry. -/
def entryMark : Nat := 0x04034B50

/-- The packing method that leaves bytes as they are. -/
def storedMethod : Nat := 0

/-- The packing method that deflates. -/
def deflatedMethod : Nat := 8

/-- The bytes that a packing method made of some others are turned back into those. -/
def unpack? (method : Nat) (packed : Bytes) : Option Bytes :=
  if method = storedMethod then some packed
  else if method = deflatedMethod then inflate? packed
  else none

def content? (archive : Archive) (entry : ArchiveEntry) : Option Bytes := do
  guard (!entry.isEncrypted && !entry.isProtected)
  guard ((← littleEndian? archive.data entry.start 4) = entryMark)
  let nameLength ← littleEndian? archive.data (entry.start + 26) 2
  let extraLength ← littleEndian? archive.data (entry.start + 28) 2
  let start := entry.start + 30 + nameLength + extraLength
  let content ← unpack? entry.method
    (archive.data.extract start (start + entry.packedSize)).toList
  guard ((checksum content).toNat = entry.checksum)
  return content

/-- The content of the last entry with a name. -/
def read? (archive : Archive) (name : String) : Option Bytes := do
  let entry ← archive.entries.reverse.find? fun entry => entry.name = name
  archive.content? entry

end Archive

end ClassHost
