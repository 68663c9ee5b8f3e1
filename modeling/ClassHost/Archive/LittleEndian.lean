import ClassHost.Bytes

/-!
# Little-endian numbers

Archives keep their numbers lowest byte first, each at a fixed distance from the start of a record.
-/

namespace ClassHost.Archive

/-- The number whose little-endian digits are the bytes. -/
def littleEndian (bytes : Bytes) : Nat :=
  bytes.foldr (fun b n => b.toNat + 256 * n) 0

/-- The number in `width` bytes from `start` on, if they are there. -/
def littleEndian? (data : Array UInt8) (start width : Nat) : Option Nat :=
  if start + width ≤ data.size then
    some (littleEndian (data.extract start (start + width)).toList)
  else none

/-- The first place from `start` on, of `count` many, with a four-byte mark. -/
def findMark? (data : Array UInt8) (mark start : Nat) : Nat → Option Nat
  | 0 => none
  | count + 1 =>
    if littleEndian? data start 4 = some mark then some start
    else findMark? data mark (start + 1) count

end ClassHost.Archive
