import ClassHost.Text.Quoted

/-!
# Log lines

A log is read line by line, often on a terminal. So a text that is logged is shown as the lines it
consists of, and characters that would steer the terminal are shown as their codes.
-/

namespace ClassHost.Text

/-- Bell, backspace, form feed, escape and delete: the controls that steer a terminal by
themselves or start a command to it. -/
def terminalControls : List Char := ['\x07', '\x08', '\x0C', '\x1B', '\x7F']

/-- One character of a line. The controls from 80 to 9F are commands to a terminal as well. -/
def loggedChar (c : Char) : String :=
  if terminalControls.contains c then
    "\\x" ++ (if c < '\x10' then "0" else "") ++ hexDigits c.toNat
  else if '\u0080' ≤ c ∧ c ≤ '\u009F' then "\\u\x7b" ++ hexDigits c.toNat ++ "\x7d"
  else String.singleton c

/-- Cuts a text at its line feeds. A carriage return in front of one, or at the end, belongs to the
line break. -/
def cutLines : List Char → List (List Char)
  | [] | ['\r'] => [[]]
  | '\n' :: rest | '\r' :: '\n' :: rest => [] :: cutLines rest
  | c :: rest =>
    match cutLines rest with
    | [] => [[c]]
    | line :: lines => (c :: line) :: lines

/-- The lines that a log shows of a text. -/
def logLines (text : String) : List String :=
  (cutLines text.toList).map fun line => String.join (line.map loggedChar)

end ClassHost.Text
