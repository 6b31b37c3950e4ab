import GossipDirectory.Text.Utf8

/-!
# Bit strings

Bytes and digits of a few bits are taken apart into bits, the most significant first, and put
together from them.
-/

namespace GossipDirectory

namespace Bits

/-- The `width` lowest bits of a number, most significant first. -/
def bitsOf : Nat → Nat → List Bool
  | 0, _ => []
  | width + 1, n => n.testBit width :: bitsOf width n

/-- The number whose bits are given, most significant first. -/
def ofBits (bits : List Bool) : Nat :=
  bits.foldl (fun n b => 2 * n + b.toNat) 0

/-- Splits a list into pieces of `size + 1` elements; a shorter rest is the last piece. -/
def pieces {α : Type} (size : Nat) (xs : List α) : List (List α) :=
  match xs with
  | [] => []
  | x :: rest => (x :: rest.take size) :: pieces size (rest.drop size)
termination_by xs.length
decreasing_by simp only [List.length_drop, List.length_cons]; omega

/-- All bits of a byte string. -/
def bitsOfBytes (bytes : Bytes) : List Bool :=
  bytes.flatMap fun b => bitsOf 8 b.toNat

/-- The whole bytes of a bit string; up to seven bits left over are dropped. -/
def bytesOfBits (bits : List Bool) : Bytes :=
  ((pieces 7 bits).filter (·.length = 8)).map fun piece => UInt8.ofNat (ofBits piece)

end Bits

end GossipDirectory
