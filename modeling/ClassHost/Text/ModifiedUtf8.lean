import ClassHost.Text.Units

/-!
# Modified UTF-8

Class files store text as groups of one to three bytes, one group per UTF-16 unit. `U+0000` takes
two bytes and a supplementary character is stored as its two surrogates, three bytes each.

* `encode` writes the shortest group of every unit.
* `decode` reads groups of any length, also ones longer than needed and a bare zero byte, and then
  joins surrogates. A fault names the first byte that fits no group; a lone surrogate is found only
  once every group has been read.
-/

namespace ClassHost.Text.ModifiedUtf8

/-- Why bytes are no modified UTF-8 text. -/
inductive Fault where
  /-- The byte at this position starts no group. -/
  | lead (byte : UInt8) (position : Nat)
  /-- The byte at this position, or the end of input there, does not continue a group. -/
  | continuation (position : Nat)
  /-- The units read hold a surrogate without its partner. -/
  | loneSurrogate
  deriving Repr, DecidableEq

/-- The shortest group of one unit; the zero unit takes two bytes. -/
def encodeUnit (u : UInt16) : List UInt8 :=
  let n := u.toNat
  if 0 < n ∧ n < 0x80 then [n.toUInt8]
  else if n < 0x800 then [(0xC0 + n / 0x40).toUInt8, (0x80 + n % 0x40).toUInt8]
  else [(0xE0 + n / 0x1000).toUInt8, (0x80 + n / 0x40 % 0x40).toUInt8, (0x80 + n % 0x40).toUInt8]

/-- The shortest form of a text. -/
def encode (text : String) : List UInt8 :=
  (units text).flatMap encodeUnit

/-- A byte of the form `10xxxxxx`. -/
def isContinuation (b : UInt8) : Bool := b &&& 0xC0 == 0x80

/-- The payload of a continuation byte. -/
def payload (b : UInt8) : UInt16 := (b &&& 0x3F).toUInt16

/-- Reads groups into units behind those already read, which `read` holds in reverse; `position`
is where `bytes` starts in the whole text. -/
def readGroups (position : Nat) (bytes : List UInt8) (read : List UInt16) :
    Except Fault (List UInt16) :=
  match bytes with
  | [] => .ok read.reverse
  | b :: rest =>
    if b &&& 0x80 == 0 then readGroups (position + 1) rest (b.toUInt16 :: read)
    else if b &&& 0xE0 == 0xC0 then
      match rest with
      | c :: rest =>
        if isContinuation c then
          readGroups (position + 2) rest (((b &&& 0x1F).toUInt16 <<< 6 ||| payload c) :: read)
        else .error (.continuation (position + 1))
      | [] => .error (.continuation (position + 1))
    else if b &&& 0xF0 == 0xE0 then
      match rest with
      | c :: d :: rest =>
        if isContinuation c then
          if isContinuation d then
            readGroups (position + 3) rest
              (((b &&& 0x0F).toUInt16 <<< 12 ||| payload c <<< 6 ||| payload d) :: read)
          else .error (.continuation (position + 2))
        else .error (.continuation (position + 1))
      | [c] =>
        .error (.continuation (if isContinuation c then position + 2 else position + 1))
      | [] => .error (.continuation (position + 1))
    else .error (.lead b position)

/-- The text of a byte string in modified UTF-8. -/
def decode (bytes : List UInt8) : Except Fault String :=
  match readGroups 0 bytes [] with
  | .error fault => .error fault
  | .ok us =>
    match ofUnits? us with
    | some text => .ok text
    | none => .error .loneSurrogate

end ClassHost.Text.ModifiedUtf8
