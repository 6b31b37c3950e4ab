import GossipDirectory.Crypto.Sha512

/-!
# Ed25519 public keys

A seed of 32 bytes is hashed; the first half of the digest, with some bits fixed, is the factor by
which the base point of the curve `-x² + y² = 1 + d x² y²` is multiplied. The public key is the `y`
coordinate of the product, with the lowest bit of `x` on top.

## Implementation notes

Points are held in projective coordinates `(X, Y, Z, T)` with `x = X / Z`, `y = Y / Z` and
`T = X * Y / Z`; one complete addition formula serves for doubling as well.
-/

namespace GossipDirectory

namespace Ed25519

/-- The size of the field. -/
def prime : Nat := Nat.pow 2 255 - 19

/-- The curve's coefficient. -/
def curve : Nat :=
  37095705934669439343138083508754565189542113879843219016388785533085940283555

/-- A point of the curve. -/
structure Point where
  x : Nat
  y : Nat
  z : Nat
  t : Nat

/-- The neutral point. -/
def neutral : Point :=
  ⟨0, 1, 1, 0⟩

/-- The base point's first coordinate. -/
def baseX : Nat :=
  15112221349535400772501151409588531511454012693041857206046113283949847762202

/-- The base point's second coordinate. -/
def baseY : Nat :=
  46316835694926478169428394003475163141307993866256225615783033603165251855960

/-- The base point. -/
def base : Point :=
  ⟨baseX, baseY, 1, baseX * baseY % prime⟩

/-- Difference in the field. -/
def minus (a b : Nat) : Nat :=
  (a + (prime - b % prime)) % prime

/-- The sum of two points. -/
def add (p q : Point) : Point :=
  let a := minus p.y p.x * minus q.y q.x % prime
  let b := (p.y + p.x) * (q.y + q.x) % prime
  let c := 2 * p.t * q.t * curve % prime
  let d := 2 * p.z * q.z % prime
  let e := minus b a
  let f := minus d c
  let g := (d + c) % prime
  let h := (b + a) % prime
  ⟨e * f % prime, g * h % prime, f * g % prime, e * h % prime⟩

/-- The multiple of a point by the lowest `bits` bits of a number. -/
def multiply (p : Point) (n : Nat) : Nat → Point
  | 0 => neutral
  | bits + 1 =>
    let rest := multiply (add p p) (n / 2) bits
    if n % 2 = 1 then add p rest else rest

/-- The product of the lowest `bits` bits of the exponent with a base, in the field. -/
def power (b n : Nat) : Nat → Nat
  | 0 => 1
  | bits + 1 =>
    let rest := power (b * b % prime) (n / 2) bits
    if n % 2 = 1 then b * rest % prime else rest

/-- The inverse in the field. -/
def inverse (a : Nat) : Nat :=
  power a (prime - 2) 255

/-- The number that bytes write, least significant first. -/
def littleEndian (bytes : Bytes) : Nat :=
  bytes.foldr (fun b n => b.toNat + 256 * n) 0

/-- The lowest 32 bytes of a number, least significant first. -/
def bytesOf (n : Nat) : Bytes :=
  (List.range 32).map fun i => UInt8.ofNat (n / Nat.pow 256 i)

/-- The secret factor of a seed: a multiple of eight whose highest set bit is the 254th. -/
def secretFactor (seed : Bytes) : Nat :=
  let n := littleEndian ((Sha512.digest seed).take 32)
  let top := Nat.pow 2 254
  top + n % top / 8 * 8

/-- The public key that belongs to a seed of 32 bytes. -/
def publicKey (seed : Bytes) : Bytes :=
  let p := multiply base (secretFactor seed) 255
  let z := inverse p.z
  let x := p.x * z % prime
  let y := p.y * z % prime
  bytesOf (y + x % 2 * Nat.pow 2 255)

end Ed25519

end GossipDirectory
