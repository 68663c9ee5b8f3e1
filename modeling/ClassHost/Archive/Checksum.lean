import ClassHost.Bytes

/-!
# The 32-bit cyclic redundancy check

The checksum that archives keep of every entry: the reflected polynomial `EDB88320`, one table
look-up per byte, complemented before and after.
-/

namespace ClassHost.Archive

/-- One shift of the remainder. -/
def shiftRemainder (r : UInt32) : UInt32 :=
  if r &&& 1 = 1 then (r >>> 1) ^^^ 0xEDB88320 else r >>> 1

/-- The remainder after the eight shifts of one byte. -/
def shiftByte (r : UInt32) : UInt32 :=
  Nat.fold 8 (fun _ _ r => shiftRemainder r) r

/-- Eight shifts of every byte. -/
def remainderTable : Array UInt32 :=
  (Array.range 256).map fun byte => shiftByte byte.toUInt32

/-- The remainder after one more byte. -/
def feedByte (r : UInt32) (b : UInt8) : UInt32 :=
  remainderTable.getD ((r ^^^ b.toUInt32) &&& 0xFF).toNat 0 ^^^ (r >>> 8)

def checksum (bytes : Bytes) : UInt32 :=
  ~~~(bytes.foldl feedByte 0xFFFFFFFF)

end ClassHost.Archive
