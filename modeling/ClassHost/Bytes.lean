/-!
# Byte strings and big-endian reads

Class files are read from the front, a fixed number of bytes at a time, most significant byte
first.

* `split` takes an exact number of bytes off the front or says how many were left; a failed read
  consumes nothing, since the caller still holds the bytes it started with.
* `readWord` reads a number of a given width, `bigEndian` writes one.
-/

namespace ClassHost

/-- A byte string. -/
abbrev Bytes := List UInt8

/-- A read that wanted more bytes than were left. -/
structure EndOfInput where
  wanted : Nat
  left : Nat
  deriving Repr, DecidableEq

namespace EndOfInput

def message (fault : EndOfInput) : String :=
  s!"unexpected end of input: wanted {fault.wanted} bytes, {fault.left} left"

end EndOfInput

namespace Bytes

/-- The first `count` bytes and the rest. -/
def split (count : Nat) (bytes : Bytes) : Except EndOfInput (Bytes × Bytes) :=
  let front := bytes.take count
  if front.length = count then .ok (front, bytes.drop count)
  else .error ⟨count, front.length⟩

/-- The number whose big-endian digits are the bytes. -/
def toNat (bytes : Bytes) : Nat :=
  bytes.foldl (fun n b => n * 256 + b.toNat) 0

/-- The lowest `width` bytes of a number, most significant first. -/
def bigEndian : Nat → Nat → Bytes
  | 0, _ => []
  | width + 1, n => bigEndian width (n / 256) ++ [n.toUInt8]

/-- A number of `width` bytes and the rest. -/
def readWord (width : Nat) (bytes : Bytes) : Except EndOfInput (Nat × Bytes) := do
  let (front, rest) ← split width bytes
  return (toNat front, rest)

end Bytes

end ClassHost
