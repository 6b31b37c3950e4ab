import GossipDirectory.Number.Double
import GossipDirectory.Text.Decimal

/-!
# Shortest decimal text of a double

Among the decimals that round to a given double, the one with the fewest digits is written; of
several, the one nearest to the double, and of two equally near ones the even one.
-/

namespace GossipDirectory

namespace Shortest

/-- A positive decimal `digits · 10 ^ exponent`. -/
structure Scientific where
  digits : Nat
  exponent : Int
  deriving DecidableEq, Repr

/-- The reals that round to `significand · 2 ^ exponent`, in units of a quarter of its last place:
`low ≤ x ≤ high`, or strictly between them when the ends round away. -/
structure Interval where
  low : Nat
  middle : Nat
  high : Nat
  closed : Bool
  unit : Int
  deriving Repr

/-- The rounding interval of a finite positive double. -/
def interval (x : Double) : Interval :=
  let m := x.significand
  let atPowerOfTwo := m = Double.hiddenBit ∧ x.exponentBits > 1
  { low := if atPowerOfTwo then 4 * m - 1 else 4 * m - 2
    middle := 4 * m
    high := 4 * m + 2
    closed := m % 2 = 0
    unit := x.exponent - 2 }

/-- Factors `(a, b)` with `n · 2 ^ unit / 10 ^ power = n · a / b`. -/
def factors (unit power : Int) : Nat × Nat :=
  (Nat.pow 2 unit.toNat * Nat.pow 10 (-power).toNat,
    Nat.pow 2 (-unit).toNat * Nat.pow 10 power.toNat)

/-- Whether the decimal `digits · 10 ^ power` lies in the interval. -/
def Interval.contains (i : Interval) (digits : Nat) (power : Int) : Bool :=
  let (a, b) := factors i.unit power
  if i.closed then i.low * a ≤ digits * b && digits * b ≤ i.high * a
  else i.low * a < digits * b && digits * b < i.high * a

/-- The decimal with last place `10 ^ power` next to the middle that lies in the interval. -/
def Interval.neighbour? (i : Interval) (power : Int) : Option Scientific :=
  let (a, b) := factors i.unit power
  let below := i.middle * a / b
  let above := below + 1
  let down := i.contains below power
  let up := i.contains above power
  let remainder := 2 * (i.middle * a % b)
  let takeBelow := remainder < b || (remainder = b && below % 2 = 0)
  if down && (takeBelow || !up) then some ⟨below, power⟩
  else if up then some ⟨above, power⟩
  else none

/-- The largest power of ten not above the middle of the interval. -/
def Interval.magnitude (i : Interval) : Int :=
  let guess := (((Nat.log2 i.middle : Nat) : Int) + i.unit) * 30103 / 100000
  let atLeast (e : Int) : Bool :=
    let (a, b) := factors i.unit e
    b ≤ i.middle * a
  if atLeast (guess + 1) then guess + 1 else if atLeast guess then guess else guess - 1

/-- Drops trailing zeros of the digits, at most `fuel` of them. -/
def Scientific.trim : Nat → Scientific → Scientific
  | 0, s => s
  | fuel + 1, s =>
    if s.digits % 10 = 0 ∧ s.digits ≠ 0 then trim fuel ⟨s.digits / 10, s.exponent + 1⟩ else s

/-- The shortest decimal that rounds to a finite positive double. -/
def ofDouble (x : Double) : Scientific :=
  let i := interval x
  let top := i.magnitude
  let grids := (List.range 17).map fun (n : Nat) => top - (n : Int)
  let found := grids.findSome? i.neighbour?
  (found.getD ⟨x.significand, 0⟩).trim 18

/-- Where positional notation ends: a number whose decimal point stands at place `point` (counted
from its first digit) is positional when `lowest < point ≤ highest`. -/
structure Layout where
  lowest : Int
  highest : Int

/-- Positive exponents carry a plus sign, single digits have no fraction. -/
def exponentText (digits : List Char) (power : Int) : List Char :=
  let sign := if power < 0 then ['-'] else ['+']
  let mantissa := match digits with
    | [d] => [d]
    | d :: rest => d :: '.' :: rest
    | [] => []
  mantissa ++ 'e' :: sign ++ Decimal.render power.natAbs

/-- A positive decimal in a layout; positional text has at least one digit after the point. -/
def Scientific.text (layout : Layout) (s : Scientific) : List Char :=
  let digits := Decimal.render s.digits
  let count : Int := digits.length
  let point := count + s.exponent
  if layout.lowest < point ∧ point ≤ layout.highest then
    if count ≤ point then
      digits ++ List.replicate (point - count).toNat '0' ++ ['.', '0']
    else if 0 < point then
      digits.take point.toNat ++ '.' :: digits.drop point.toNat
    else
      '0' :: '.' :: (List.replicate (-point).toNat '0' ++ digits)
  else exponentText digits (point - 1)

/-- The shortest text of a finite double. -/
def text (layout : Layout) (x : Double) : List Char :=
  let body := if x.significand = 0 then ['0', '.', '0'] else (ofDouble x).text layout
  if x.isNegative then '-' :: body else body

end Shortest

end GossipDirectory
