/-!
# UTF-16 code units

Strings of a running program are sequences of 16-bit units. A character below `U+10000` is one
unit, any other is a high surrogate followed by a low one.

* `units` writes a text as units, `ofUnits?` reads units back and refuses a surrogate that stands
  alone.
* `hash` is the 32-bit string hash `u₀ * 31^(n-1) + ... + u₍ₙ₋₁₎`, wrapping.
-/

namespace ClassHost.Text

/-- The units of one character. -/
def unitsOfChar (c : Char) : List UInt16 :=
  if c.toNat < 0x10000 then [c.toNat.toUInt16]
  else [(0xD800 + (c.toNat - 0x10000) / 0x400).toUInt16,
        (0xDC00 + (c.toNat - 0x10000) % 0x400).toUInt16]

/-- The units of a text, character by character. -/
def units (text : String) : List UInt16 :=
  text.toList.flatMap unitsOfChar

/-- The first half of a surrogate pair. -/
def isHighSurrogate (u : UInt16) : Bool := 0xD800 ≤ u && u < 0xDC00

/-- The second half of a surrogate pair. -/
def isLowSurrogate (u : UInt16) : Bool := 0xDC00 ≤ u && u < 0xE000

/-- The character that a surrogate pair stands for. -/
def charOfPair (high low : UInt16) : Char :=
  Char.ofNat (0x10000 + (high.toNat - 0xD800) * 0x400 + (low.toNat - 0xDC00))

/-- Reads units into characters behind those already read, which `read` holds in reverse. -/
def readUnits : List UInt16 → List Char → Option (List Char)
  | [], read => some read.reverse
  | u :: rest, read =>
    if isHighSurrogate u then
      match rest with
      | [] => none
      | v :: rest =>
        if isLowSurrogate v then readUnits rest (charOfPair u v :: read) else none
    else if isLowSurrogate u then none
    else readUnits rest (Char.ofNat u.toNat :: read)

/-- The text of well-formed units, `none` if a surrogate has no partner. -/
def ofUnits? (us : List UInt16) : Option String :=
  (readUnits us []).map String.ofList

/-- The string hash, with wrapping 32-bit arithmetic. -/
def hash (us : List UInt16) : Int32 :=
  us.foldl (fun h u => h * 31 + Int32.ofNat u.toNat) 0

end ClassHost.Text
