import ClassHost.Bytes

/-!
# UTF-8 that may be damaged

`decodeUtf8` reads any byte string as text. Bytes that are no character become replacement
characters, one for each longest run that begins a character and is then broken off, and one for
each byte that begins none.

The first byte of a character says how many follow and which values the second may have
(`Unfinished`). That keeps out longer forms than needed, halves of pairs and code points past the
last, so what is finished is a character.
-/

namespace ClassHost.Text

/-- What stands where bytes are no character. -/
def replacementCharacter : Char := '\uFFFD'

/-- A character of which the first bytes were read: its bits so far, how many bytes are owed, and
the least and the greatest value of the next. -/
structure Unfinished where
  bits : Nat
  owed : Nat
  least : UInt8
  greatest : UInt8
  deriving Repr, DecidableEq

/-- What a byte adds to the text, and the character left unfinished after it. -/
abbrev Utf8Step := List Char × Option Unfinished

/-- The step of a byte between characters. -/
def openingStep (b : UInt8) : Utf8Step :=
  if b < 0x80 then ([Char.ofNat b.toNat], none)
  else if b < 0xC2 then ([replacementCharacter], none)
  else if b < 0xE0 then ([], some ⟨b.toNat - 0xC0, 1, 0x80, 0xBF⟩)
  else if b < 0xF0 then
    ([], some ⟨b.toNat - 0xE0, 2, if b = 0xE0 then 0xA0 else 0x80, if b = 0xED then 0x9F else 0xBF⟩)
  else if b < 0xF5 then
    ([], some ⟨b.toNat - 0xF0, 3, if b = 0xF0 then 0x90 else 0x80, if b = 0xF4 then 0x8F else 0xBF⟩)
  else ([replacementCharacter], none)

/-- The step of a byte after those of an unfinished character. One that does not go on with it
breaks it off and is read afresh. -/
def followingStep (start : Unfinished) (b : UInt8) : Utf8Step :=
  if start.least ≤ b ∧ b ≤ start.greatest then
    let bits := 64 * start.bits + b.toNat % 64
    if start.owed = 1 then ([Char.ofNat bits], none)
    else ([], some ⟨bits, start.owed - 1, 0x80, 0xBF⟩)
  else
    let (written, next) := openingStep b
    (replacementCharacter :: written, next)

/-- The characters of the bytes that come after an unfinished character, or after none. -/
def decodeUtf8From : Option Unfinished → Bytes → List Char
  | none, [] => []
  | some _, [] => [replacementCharacter]
  | none, b :: rest =>
    let (written, next) := openingStep b
    written ++ decodeUtf8From next rest
  | some start, b :: rest =>
    let (written, next) := followingStep start b
    written ++ decodeUtf8From next rest

/-- The text of a byte string. -/
def decodeUtf8 (bytes : Bytes) : String :=
  String.ofList (decodeUtf8From none bytes)

end ClassHost.Text
