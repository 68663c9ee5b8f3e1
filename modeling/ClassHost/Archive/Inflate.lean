import ClassHost.Bytes

/-!
# Deflated data

A deflated stream is a row of blocks. A block is stored, or coded with one of two kinds of prefix
code whose symbols are bytes, the end of the block, and copies of what was written before.

`inflate?` gives what a stream stands for. A stream that breaks off before the end of its last block
gives nothing, and neither does one with a code, a copy or a block that cannot be; bytes after the
last block do not matter.
-/

namespace ClassHost.Archive

/-- Bytes read from the lowest bit up. `used` bits of the first byte have been read. -/
structure BitStream where
  bytes : Bytes
  used : Nat

namespace BitStream

def bit? (s : BitStream) : Option (Nat × BitStream) :=
  match s.bytes with
  | [] => none
  | b :: rest =>
    let bit := b.toNat >>> s.used % 2
    some (bit, if s.used < 7 then ⟨b :: rest, s.used + 1⟩ else ⟨rest, 0⟩)

/-- A number of `width` bits, lowest first. -/
def number? : Nat → BitStream → Option (Nat × BitStream)
  | 0, s => some (0, s)
  | width + 1, s => do
    let (low, s) ← s.bit?
    let (high, s) ← number? width s
    return (low + 2 * high, s)

/-- The whole bytes that follow the one partly read. -/
def wholeBytes (s : BitStream) : Bytes :=
  if s.used = 0 then s.bytes else s.bytes.drop 1

end BitStream

/-! ## Prefix codes -/

/-- A canonical prefix code: how many symbols have codes of each length, and the symbols in the
order of their codes. -/
structure PrefixCode where
  counts : Array Nat
  symbols : Array Nat

namespace PrefixCode

/-- No code is longer. -/
def maxLength : Nat := 15

/-- The code whose symbol `i` has a code of `lengths[i]` bits, or none at all for length 0. -/
def ofLengths (lengths : List Nat) : PrefixCode :=
  let withLength (n : Nat) := lengths.zipIdx.filterMap fun (length, symbol) =>
    if length = n then some symbol else none
  let groups := (List.range (maxLength + 1)).map fun n => if n = 0 then [] else withLength n
  ⟨(groups.map List.length).toArray, groups.flatten.toArray⟩

/-- How many codes of the longest length are left over, negative if there are too many. -/
def slack (code : PrefixCode) : Int :=
  (code.counts.toList.drop 1).foldl (fun (left : Int) (count : Nat) => 2 * left - count) 1

/-- No code is longer than this one bit. -/
def isShort (code : PrefixCode) : Bool :=
  (code.counts.toList.drop 2).all (· = 0)

/-- A code may leave some bit patterns without meaning only if it has no code of more than one
bit. -/
def isUsable (code : PrefixCode) : Bool :=
  code.slack = 0 || (code.slack > 0 && code.isShort)

/-- Reads bits until they are a code. `word` is what was read, `first` the first code of this
length and `index` the place of its symbol. -/
def readFrom? (code : PrefixCode) (word first index : Nat) : List Nat → BitStream →
    Option (Nat × BitStream)
  | [], _ => none
  | count :: counts, s => do
    let (bit, s) ← s.bit?
    let word := 2 * word + bit
    if word < first + count then
      return (← code.symbols[index + (word - first)]?, s)
    else readFrom? code word (2 * (first + count)) (index + count) counts s

def read? (code : PrefixCode) (s : BitStream) : Option (Nat × BitStream) :=
  code.readFrom? 0 0 0 (code.counts.toList.drop 1) s

end PrefixCode

/-- The two codes of a block: bytes with lengths of copies, and distances. -/
structure BlockCodes where
  literals : PrefixCode
  distances : PrefixCode

/-- The codes that blocks without tables of their own use. -/
def BlockCodes.fixed : BlockCodes where
  literals := .ofLengths (List.replicate 144 8 ++ List.replicate 112 9 ++ List.replicate 24 7 ++
    List.replicate 8 8)
  distances := .ofLengths (List.replicate 30 5)

/-! ## Tables in front of a block -/

/-- The order in which a block gives the lengths of the code for lengths. -/
def lengthOrder : List Nat := [16, 17, 18, 0, 8, 7, 9, 6, 10, 5, 11, 4, 12, 3, 13, 2, 14, 1, 15]

/-- Reads `count` numbers of three bits. -/
def readTriples? : Nat → BitStream → Option (List Nat × BitStream)
  | 0, s => some ([], s)
  | count + 1, s => do
    let (n, s) ← s.number? 3
    let (rest, s) ← readTriples? count s
    return (n :: rest, s)

/-- Reads code lengths until there are `count`, and no more. Each symbol adds at least one, so
`fuel = count` suffices. -/
def readLengths? (code : PrefixCode) (count : Nat) (fuel : Nat) (read : Array Nat)
    (s : BitStream) : Option (Array Nat × BitStream) :=
  match fuel with
  | 0 => if read.size = count then some (read, s) else none
  | fuel + 1 =>
    if count ≤ read.size then (if read.size = count then some (read, s) else none)
    else do
      let (symbol, s) ← code.read? s
      if symbol < 16 then readLengths? code count fuel (read.push symbol) s
      else if symbol = 16 then
        let last ← read.back?
        let (more, s) ← s.number? 2
        readLengths? code count fuel (read ++ Array.replicate (more + 3) last) s
      else if symbol = 17 then
        let (more, s) ← s.number? 3
        readLengths? code count fuel (read ++ Array.replicate (more + 3) 0) s
      else
        let (more, s) ← s.number? 7
        readLengths? code count fuel (read ++ Array.replicate (more + 11) 0) s

/-- There are 256 bytes, the end of the block and 29 lengths of copies. -/
def maxLiterals : Nat := 286

/-- There are 30 distances. -/
def maxDistances : Nat := 30

/-- The symbol that ends a block. -/
def blockEndSymbol : Nat := 256

/-- The codes that a block brings along. A block has to be able to end. -/
def readCodes? (s : BitStream) : Option (BlockCodes × BitStream) := do
  let (literals, s) ← s.number? 5
  let (distances, s) ← s.number? 5
  let (lengths, s) ← s.number? 4
  let literals := literals + 257
  let distances := distances + 1
  guard (literals ≤ maxLiterals ∧ distances ≤ maxDistances)
  let (triples, s) ← readTriples? (lengths + 4) s
  let given := lengthOrder.zip triples
  let lengthCode := PrefixCode.ofLengths <|
    (List.range 19).map fun symbol => (given.lookup symbol).getD 0
  guard (lengthCode.slack = 0)
  let total := literals + distances
  let (all, s) ← readLengths? lengthCode total total #[] s
  let codes : BlockCodes :=
    ⟨.ofLengths (all.toList.take literals), .ofLengths (all.toList.drop literals)⟩
  guard (all.getD blockEndSymbol 0 ≠ 0 ∧ codes.literals.isUsable ∧ codes.distances.isUsable)
  return (codes, s)

/-! ## Blocks -/

/-- Shortest copy and extra bits of the length symbols from 257 on. -/
def copyLengths : Array (Nat × Nat) := #[
  (3, 0), (4, 0), (5, 0), (6, 0), (7, 0), (8, 0), (9, 0), (10, 0), (11, 1), (13, 1), (15, 1),
  (17, 1), (19, 2), (23, 2), (27, 2), (31, 2), (35, 3), (43, 3), (51, 3), (59, 3), (67, 4),
  (83, 4), (99, 4), (115, 4), (131, 5), (163, 5), (195, 5), (227, 5), (258, 0)]

/-- Shortest distance and extra bits of the distance symbols. -/
def copyDistances : Array (Nat × Nat) := #[
  (1, 0), (2, 0), (3, 0), (4, 0), (5, 1), (7, 1), (9, 2), (13, 2), (17, 3), (25, 3), (33, 4),
  (49, 4), (65, 5), (97, 5), (129, 6), (193, 6), (257, 7), (385, 7), (513, 8), (769, 8),
  (1025, 9), (1537, 9), (2049, 10), (3073, 10), (4097, 11), (6145, 11), (8193, 12), (12289, 12),
  (16385, 13), (24577, 13)]

/-- A number whose symbol gives its least value and how many bits are to be added. -/
def readRange? (table : Array (Nat × Nat)) (symbol : Nat) (s : BitStream) :
    Option (Nat × BitStream) := do
  let (least, extra) ← table[symbol]?
  let (more, s) ← s.number? extra
  return (least + more, s)

/-- Repeats `length` bytes from `distance` bytes back, also those it has just written. -/
def copyBack (distance : Nat) : Nat → Array UInt8 → Array UInt8
  | 0, out => out
  | length + 1, out => copyBack distance length (out.push (out.getD (out.size - distance) 0))

/-- What a symbol of a block stands for. -/
inductive Symbol where
  | byte (value : UInt8)
  | copy (distance length : Nat)
  | blockEnd
  deriving Repr, DecidableEq

/-- The next symbol of a block. -/
def readSymbol? (codes : BlockCodes) (s : BitStream) : Option (Symbol × BitStream) := do
  let (symbol, s) ← codes.literals.read? s
  if symbol < blockEndSymbol then return (.byte symbol.toUInt8, s)
  else if symbol = blockEndSymbol then return (.blockEnd, s)
  else
    let (length, s) ← readRange? copyLengths (symbol - (blockEndSymbol + 1)) s
    let (symbol, s) ← codes.distances.read? s
    let (distance, s) ← readRange? copyDistances symbol s
    return (.copy distance length, s)

/-- What was written, and where reading goes on. -/
abbrev Written := Array UInt8 × BitStream

/-- The symbols of a block up to its end. Each takes at least one bit, so `fuel` may be the number
of bits left. A copy cannot reach back further than to the first byte. -/
def readSymbols? (codes : BlockCodes) (fuel : Nat) (out : Array UInt8) (s : BitStream) :
    Option Written :=
  match fuel with
  | 0 => none
  | fuel + 1 =>
    match readSymbol? codes s with
    | none => none
    | some (.byte value, s) => readSymbols? codes fuel (out.push value) s
    | some (.blockEnd, s) => some (out, s)
    | some (.copy distance length, s) =>
      if out.size < distance then none
      else readSymbols? codes fuel (copyBack distance length out) s

/-- A block of plain bytes with its length, twice, in front. -/
def readStored? (out : Array UInt8) (s : BitStream) : Option Written :=
  match s.wholeBytes with
  | a :: b :: c :: d :: rest =>
    let length := a.toNat + 256 * b.toNat
    let plain := rest.take length
    if length + (c.toNat + 256 * d.toNat) = 0xFFFF ∧ plain.length = length then
      some (out ++ plain.toArray, ⟨rest.drop length, 0⟩)
    else none
  | _ => none

/-- A block of the given kind, which has at most `limit` symbols. -/
def readBlock? (limit kind : Nat) (out : Array UInt8) (s : BitStream) : Option Written :=
  match kind with
  | 0 => readStored? out s
  | 1 => readSymbols? .fixed limit out s
  | 2 =>
    match readCodes? s with
    | none => none
    | some (codes, s) => readSymbols? codes limit out s
  | _ => none

/-- Blocks up to the one marked as last. Each takes at least three bits, so `fuel` may be the
number of bits left. -/
def readBlocks? (limit fuel : Nat) (out : Array UInt8) (s : BitStream) : Option (Array UInt8) :=
  match fuel with
  | 0 => none
  | fuel + 1 =>
    match s.number? 3 with
    | none => none
    | some (header, s) =>
      match readBlock? limit (header / 2) out s with
      | none => none
      | some (out, s) =>
        if header % 2 = 1 then some out else readBlocks? limit fuel out s

/-- What a deflated stream stands for, if it is whole. -/
def inflate? (bytes : Bytes) : Option Bytes :=
  let bits := 8 * bytes.length
  (readBlocks? bits bits #[] ⟨bytes, 0⟩).map Array.toList

end ClassHost.Archive
