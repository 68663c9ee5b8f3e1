/-!
# Shortest decimals of binary floating point numbers

A finite number of a binary format stands for every real that rounds to it. `shortest` picks from
those the decimal with the fewest digits and, of several, the one nearest to the number itself.

* `FloatFormat.decode` reads bits as a sign and a class: zero, infinite, not a number, or a finite
  `mantissa * 2 ^ exponent`.
* `shortest` gives digits and a power of ten; the digits do not end in zero.
* `Style.render` lays digits out, positionally between two powers of ten and with an exponent
  elsewhere.
-/

namespace ClassHost.Decimal

/-- The widths of a binary interchange format. -/
structure FloatFormat where
  mantissaBits : Nat
  exponentBits : Nat
  deriving Repr, DecidableEq

def FloatFormat.single : FloatFormat := ⟨23, 8⟩

def FloatFormat.double : FloatFormat := ⟨52, 11⟩

/-- The magnitude `mantissa * 2 ^ exponent` of a finite number that is not zero. `narrow` says
that the next smaller number is only half as far away as the next larger one. -/
structure Binary where
  mantissa : Nat
  exponent : Int
  narrow : Bool
  deriving Repr, DecidableEq

/-- What bits stand for, the sign apart. -/
inductive Magnitude where
  | zero
  | finite (value : Binary)
  | infinite
  | notANumber
  deriving Repr, DecidableEq

/-- Whether the sign bit is set, and the magnitude of the rest. -/
def FloatFormat.decode (f : FloatFormat) (bits : Nat) : Bool × Magnitude :=
  let fraction := bits % 1 <<< f.mantissaBits
  let biased := bits >>> f.mantissaBits % 1 <<< f.exponentBits
  let negative := bits >>> (f.mantissaBits + f.exponentBits) % 2 == 1
  let bias := 1 <<< (f.exponentBits - 1) - 1 + f.mantissaBits
  let magnitude :=
    if biased = 1 <<< f.exponentBits - 1 then
      if fraction = 0 then .infinite else .notANumber
    else if biased = 0 then
      if fraction = 0 then .zero else .finite ⟨fraction, (1 : Int) - bias, false⟩
    else
      .finite ⟨1 <<< f.mantissaBits + fraction, (biased : Int) - bias, fraction = 0 && biased > 1⟩
  (negative, magnitude)

/-- The number and the ends of the interval that rounds to it, as quotients by `unit`. The ends
belong to the interval if `closed`. -/
structure Neighbourhood where
  low : Nat
  value : Nat
  high : Nat
  unit : Nat
  closed : Bool

/-- The reals that round to a number: half way to either neighbour, ends included when the
mantissa is even. -/
def Binary.neighbourhood (b : Binary) : Neighbourhood :=
  let quarter := b.exponent - 2
  let scale := 1 <<< quarter.toNat
  ⟨(4 * b.mantissa - if b.narrow then 1 else 2) * scale, 4 * b.mantissa * scale,
    (4 * b.mantissa + 2) * scale, 1 <<< (-quarter).toNat, b.mantissa % 2 == 0⟩

/-- The same reals measured in units of `10 ^ power`. -/
def Neighbourhood.inUnitsOf (n : Neighbourhood) (power : Int) : Neighbourhood :=
  let up := Nat.pow 10 (-power).toNat
  ⟨n.low * up, n.value * up, n.high * up, n.unit * Nat.pow 10 power.toNat, n.closed⟩

/-- Whether a whole number of units lies in the interval. -/
def Neighbourhood.holds (n : Neighbourhood) (count : Nat) : Bool :=
  if n.closed then n.low ≤ count * n.unit && count * n.unit ≤ n.high
  else n.low < count * n.unit && count * n.unit < n.high

/-- Of the two whole numbers of units next to the value, the one in the interval; of two, the
nearer, and the larger at equal distance. -/
def Neighbourhood.nearest? (n : Neighbourhood) : Option Nat :=
  let below := n.value / n.unit
  let above := below + 1
  match n.holds below, n.holds above with
  | true, true => if 2 * (n.value % n.unit) < n.unit then some below else some above
  | true, false => some below
  | false, true => some above
  | false, false => none

/-- How many zeros follow the decimal point before the first digit of `value / unit`, counting up
from `zeros`; `fuel` bounds the search. -/
def leadingZeros (fuel value unit zeros : Nat) : Nat :=
  match fuel with
  | 0 => zeros
  | fuel + 1 => if unit ≤ value * 10 then zeros else leadingZeros fuel (value * 10) unit (zeros + 1)

/-- The power of ten of the first digit. -/
def Neighbourhood.leadingPower (n : Neighbourhood) : Int :=
  if n.unit ≤ n.value then (Nat.toDigits 10 (n.value / n.unit)).length - 1
  else -(leadingZeros n.unit n.value n.unit 0 + 1 : Nat)

/-- A decimal `digits * 10 ^ power`. -/
structure Numeral where
  digits : Nat
  power : Int
  deriving Repr, DecidableEq

/-- Moves zeros at the end of the digits into the power. -/
def Numeral.strip (fuel : Nat) (d : Numeral) : Numeral :=
  match fuel with
  | 0 => d
  | fuel + 1 => if d.digits % 10 = 0 then strip fuel ⟨d.digits / 10, d.power + 1⟩ else d

/-- Tries ever finer powers of ten; `tries` more after this one. -/
def Neighbourhood.search (n : Neighbourhood) (tries : Nat) (power : Int) : Numeral :=
  match (n.inUnitsOf power).nearest?, tries with
  | some count, _ => ⟨count, power⟩
  | none, tries + 1 => n.search tries (power - 1)
  | none, 0 => ⟨n.value / n.unit, 0⟩

/-- Seventeen digits tell all numbers of up to 53 mantissa bits apart. -/
def maxDigits : Nat := 17

/-- The decimal with the fewest digits that rounds back to the number, nearest of those. -/
def shortest (b : Binary) : Numeral :=
  let n := b.neighbourhood
  (n.search maxDigits n.leadingPower).strip (maxDigits + 1)

/-- Numbers whose first digit stands for a power of ten from `least` to below `limit` are written
positionally, all others with an exponent. -/
structure Style where
  least : Int
  limit : Int
  deriving Repr, DecidableEq

/-- Positional digits always show a point and at least one digit on both sides of it. An exponent
follows one digit and, after a point, the other digits if there are any. -/
def Style.render (style : Style) (d : Numeral) : String :=
  let digits := Nat.toDigits 10 d.digits
  let first : Int := d.power + digits.length - 1
  if style.least ≤ first ∧ first < style.limit then
    if 0 ≤ d.power then
      String.ofList (digits ++ List.replicate d.power.toNat '0') ++ ".0"
    else if 0 ≤ first then
      String.ofList (digits.take (first.toNat + 1)) ++ "." ++
        String.ofList (digits.drop (first.toNat + 1))
    else
      "0." ++ String.ofList (List.replicate (-first - 1).toNat '0' ++ digits)
  else
    let tail := digits.drop 1
    String.ofList (digits.take 1) ++ (if tail.isEmpty then "" else "." ++ String.ofList tail) ++
      "e" ++ toString first

/-- Any number of a format as text. -/
def Style.text (style : Style) (f : FloatFormat) (bits : Nat) : String :=
  let (negative, magnitude) := f.decode bits
  let sign := if negative then "-" else ""
  match magnitude with
  | .notANumber => "NaN"
  | .infinite => sign ++ "inf"
  | .zero => sign ++ "0.0"
  | .finite b => sign ++ style.render (shortest b)

end ClassHost.Decimal
