import GossipDirectory.Text.Utf8

/-!
# Tagged digests

The bytes of a digest stand behind the code of its hash function and its length, both of them
numbers of as few bytes as possible.
-/

namespace GossipDirectory

/-- A digest and the code of the hash function that it comes from. -/
structure TaggedDigest where
  code : Nat
  digest : Bytes
  deriving DecidableEq, Repr, Inhabited

namespace TaggedDigest

/-- The most bytes that a digest holds. -/
def maxDigest : Nat := 64

/-- A number in groups of seven bits, least significant first. -/
def varint (n : Nat) : Bytes :=
  if n < 128 then [UInt8.ofNat n] else UInt8.ofNat (128 + n % 128) :: varint (n / 128)
termination_by n

/-- Reads a number of at most ten groups that is written with as few as possible. Bits above the
64th are lost. -/
def readVarint (shift value : Nat) : Bytes → Option (Nat × Bytes)
  | [] => none
  | b :: rest =>
    if 9 < shift then none
    else
      let value := value + b.toNat % 128 * Nat.pow 2 (7 * shift)
      if b.toNat < 128 then
        if b = 0 ∧ shift ≠ 0 then none else some (value % UInt64.size, rest)
      else readVarint (shift + 1) value rest

/-- The bytes of a tagged digest. -/
def toBytes (d : TaggedDigest) : Bytes :=
  varint d.code ++ varint d.digest.length ++ d.digest

/-- The tagged digest that a byte string holds. -/
def ofBytes? (bytes : Bytes) : Option TaggedDigest := do
  let (code, rest) ← readVarint 0 0 bytes
  let (size, digest) ← readVarint 0 0 rest
  if size ≤ maxDigest ∧ digest.length = size then some { code, digest } else none

end TaggedDigest

end GossipDirectory
