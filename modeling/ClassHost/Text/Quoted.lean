import ClassHost.Text.Unprintable
import ClassHost.Text.Combining

/-!
# Quoted text

Messages that repeat a text put it in double quotes. Quotes, backslashes and the usual control
characters are written with a backslash, a character that would not show on its own as its code
point in braces, and every other character as it is.
-/

namespace ClassHost.Text

/-- A number in lower case hexadecimal digits, without leading zeros. -/
def hexDigits (n : Nat) : String :=
  String.ofList (Nat.toDigits 16 n)

/-- One character inside quotes. -/
def quotedChar (c : Char) : String :=
  if c = '\x00' then "\\0"
  else if c = '\t' then "\\t"
  else if c = '\r' then "\\r"
  else if c = '\n' then "\\n"
  else if c = '\\' then "\\\\"
  else if c = '"' then "\\\""
  else if ' ' ≤ c ∧ c ≤ '~' then String.singleton c
  else if isCombining c || isUnprintable c then "\\u\x7b" ++ hexDigits c.toNat ++ "\x7d"
  else String.singleton c

/-- A text in double quotes. -/
def quoted (text : String) : String :=
  "\"" ++ String.join (text.toList.map quotedChar) ++ "\""

end ClassHost.Text
