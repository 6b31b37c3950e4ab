/-!
# Binary floating-point numbers

A double is kept as its 64 bits, so that equality is decidable and tells signed zeros apart. Finite
doubles are `significand · 2 ^ exponent`.

## Implementation notes

Decimal text is read with the machine's arithmetic: an integer significand, then one
multiplication or division by a power of ten for every 308 decimal places. This rounds twice, so it
may miss the nearest double by a unit in the last place.
-/

namespace GossipDirectory

/-- An IEEE 754 double, given by its bits. -/
structure Double where
  bits : UInt64
  deriving DecidableEq, Repr, Inhabited

namespace Double

/-- The weight of the hidden bit, `2 ^ 52`. -/
def hiddenBit : Nat := 4503599627370496

/-- Whether the sign bit is set. -/
def isNegative (x : Double) : Bool :=
  2048 * hiddenBit ≤ x.bits.toNat

/-- The eleven exponent bits. -/
def exponentBits (x : Double) : Nat :=
  x.bits.toNat / hiddenBit % 2048

/-- The 52 fraction bits. -/
def fraction (x : Double) : Nat :=
  x.bits.toNat % hiddenBit

/-- The integer significand, the hidden bit included. -/
def significand (x : Double) : Nat :=
  if x.exponentBits = 0 then x.fraction else hiddenBit + x.fraction

/-- The power of two that scales the significand. -/
def exponent (x : Double) : Int :=
  (max x.exponentBits 1 : Nat) - 1075

/-- The double of a machine number. -/
def ofFloat (x : Float) : Double :=
  ⟨x.toBits⟩

/-- The power of ten with a small exponent. -/
def powerOfTen (e : Nat) : Float :=
  Float.ofScientific 1 false e

/-- Scales down by `10 ^ e`, in steps that machine numbers can hold. -/
def scaleDown (x : Float) (e : Nat) : Float :=
  if _h : e ≤ 308 then x / powerOfTen e
  else if x == 0 then x
  else scaleDown (x / powerOfTen 308) (e - 308)
termination_by e

/-- The double read from `significand · 10 ^ exponent`, or nothing when it is too large. -/
def ofDecimal? (negative : Bool) (significand : Nat) (exponent : Int) : Option Double :=
  let x := significand.toUInt64.toFloat
  let scaled : Option Float :=
    if exponent < 0 then some (scaleDown x exponent.natAbs)
    else if exponent ≤ 308 then
      let y := x * powerOfTen exponent.natAbs
      if y.isInf then none else some y
    else if significand = 0 then some x else none
  scaled.map fun y => ofFloat (if negative then -y else y)

end Double

end GossipDirectory
