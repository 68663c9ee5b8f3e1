import ClassHost.Text.Utf8

/-!
# Archive entries

What the directory of an archive says about one entry, and how it spells names and comments.
-/

namespace ClassHost

/-- One entry as the directory describes it. -/
structure ArchiveEntry where
  name : String
  /-- The name's bytes. -/
  rawName : Bytes
  comment : String
  flags : Nat
  method : Nat
  checksum : Nat
  packedSize : Nat
  size : Nat
  /-- Where the entry's own header starts. -/
  start : Nat
  /-- Whether a field of its own says how the content is encrypted. -/
  isProtected : Bool
  deriving Repr, DecidableEq

namespace ArchiveEntry

/-- Whether the content is encrypted, by the first flag. -/
def isEncrypted (entry : ArchiveEntry) : Bool := entry.flags % 2 = 1

/-- The upper half of the code page of the first PCs. -/
def upperCodePage : Array Char :=
  ("ÇüéâäàåçêëèïîìÄÅÉæÆôöòûùÿÖÜ¢£¥₧ƒáíóúñÑªº¿⌐¬½¼¡«»░▒▓│┤╡╢╖╕╣║╗╝╜╛┐└┴┬├─┼╞╟╚╔╩╦╠═╬╧╨╤╥╙╘╒╓╫╪┘┌█▄▌▐▀" ++
    "αßΓπΣσµτΦΘΩδ∞φε∩≡±≥≤⌠⌡÷≈°∙·√ⁿ²■\u00a0").toList.toArray

/-- A byte as a character of that code page. -/
def codePageChar (b : UInt8) : Char :=
  if b < 0x80 then Char.ofNat b.toNat else upperCodePage.getD (b.toNat - 0x80) ' '

/-- Whether the flags say that names and comments are in Unicode. -/
def saysUnicode (flags : Nat) : Bool := flags / 0x800 % 2 = 1

/-- A name or a comment: Unicode if the flags say so, else of the code page. -/
def decodeText (flags : Nat) (bytes : Bytes) : String :=
  if saysUnicode flags then Text.decodeUtf8 bytes else String.ofList (bytes.map codePageChar)

end ArchiveEntry

end ClassHost
