import ClassHost.Bytes

/-!
# Reads in place

A buffer is read from the front, and a read changes it. The plain reads of a buffer panic when it
runs dry. Class files can come from anywhere, so every read here looks first how much is left, and
reports the end of the input if that is too little.

* `Buffer` is what is asked of a buffer and its plain reads, and `Buffer.Lawful` what is known of
  them; byte strings are such buffers (`Buffer.ofBytes`).
* `Buffer.checked` puts the check in front of a plain read.
* `Buffer.readAll` reads any number of times, each time from what the reads before have left,
  whether these gave something or not.
-/

namespace ClassHost

/-- Numbers that are read. Floating point numbers are kept as their bits. -/
inductive Buffer.Number where
  | u8
  | u16
  | u32
  | u64
  | f32
  | f64
  deriving Repr, DecidableEq

/-- How many bytes a number takes. -/
def Buffer.Number.width : Number → Nat
  | u8 => 1
  | u16 => 2
  | u32 | f32 => 4
  | u64 | f64 => 8

/-- The bits of a number. -/
abbrev Buffer.Number.Bits (kind : Number) : Type := BitVec (8 * kind.width)

/-- Buffers of a type `β` with their plain reads. A plain read gives what it reads and the buffer
behind it, or panics. -/
structure Buffer (β : Type) where
  remaining : β → Nat
  take : (kind : Buffer.Number) → β → Option (kind.Bits × β)
  /-- A buffer of so many bytes, and the one behind it. -/
  splitOff : (count : Nat) → β → Option (β × β)

namespace Buffer

variable {α β : Type}

/-- What the plain reads do to the bytes in a buffer: they take them off the front, numbers most
significant byte first. It is left open what they do where too few bytes are left. -/
structure Lawful (buffer : Buffer β) (contents : β → Bytes) : Prop where
  remaining : ∀ b, buffer.remaining b = (contents b).length
  take : ∀ kind b, kind.width ≤ (contents b).length →
    ∃ bits behind, buffer.take kind b = some (bits, behind) ∧
      bits.toNat = Bytes.toNat ((contents b).take kind.width) ∧
      contents behind = (contents b).drop kind.width
  splitOff : ∀ count b, count ≤ (contents b).length →
    ∃ front behind, buffer.splitOff count b = some (front, behind) ∧
      contents front = (contents b).take count ∧ contents behind = (contents b).drop count

/-- Byte strings. -/
def ofBytes : Buffer Bytes where
  remaining := List.length
  take kind bytes :=
    if bytes.length < kind.width then none
    else some (.ofNat _ (Bytes.toNat (bytes.take kind.width)), bytes.drop kind.width)
  splitOff count bytes :=
    if bytes.length < count then none else some (bytes.take count, bytes.drop count)

-- ---------------------------------------------------------------------------
-- One read
-- ---------------------------------------------------------------------------

/-- Why a read gives nothing. -/
inductive Stop where
  | endOfInput (fault : EndOfInput)
  | panicked
  deriving Repr, DecidableEq

/-- Changes a buffer and may stop. What it did to the buffer before stands. -/
abbrev Action (β α : Type) := ExceptT Stop (StateM β) α

def plainly (read : β → Option (α × β)) : Action β α := fun b =>
  match read b with
  | some (a, behind) => (.ok a, behind)
  | none => (.error .panicked, b)

/-- A plain read, if as many bytes are left as are wanted. -/
def checked (buffer : Buffer β) (wanted : Nat) (read : β → Option (α × β)) : Action β α := do
  let left := buffer.remaining (← get)
  if left < wanted then throw (.endOfInput ⟨wanted, left⟩)
  plainly read

def readNumber (buffer : Buffer β) (kind : Number) : Action β kind.Bits :=
  buffer.checked kind.width (buffer.take kind)

def readBytes (buffer : Buffer β) (count : Nat) : Action β β :=
  buffer.checked count (buffer.splitOff count)

-- ---------------------------------------------------------------------------
-- Many reads
-- ---------------------------------------------------------------------------

/-- Everything that can be read. -/
inductive Read where
  | number (kind : Number)
  | bytes (count : Nat)
  deriving Repr, DecidableEq

/-- How many bytes a read takes. -/
def Read.size : Read → Nat
  | number kind => kind.width
  | bytes count => count

/-- What a read gives. Bytes are given as a buffer of their own. -/
inductive Value (β : Type) where
  | number (kind : Number) (bits : kind.Bits)
  | bytes (data : β)
  deriving Repr, DecidableEq

def Read.perform (buffer : Buffer β) : Read → Action β (Value β)
  | number kind => do return .number kind (← buffer.readNumber kind)
  | bytes count => do return .bytes (← buffer.readBytes count)

/-- Some reads one after the other, of which any may stop. -/
def readAll (buffer : Buffer β) (reads : List Read) : StateM β (List (Except Stop (Value β))) :=
  reads.mapM fun read => (read.perform buffer).run

end Buffer

end ClassHost
