import GossipDirectory.Text.Bits

/-!
# Base 32 text

Five bits make a character of `a`-`z` and `2`-`7`, most significant bit first. Written text is
lower case and unpadded. Reading goes by groups of eight characters, in upper case; a group may end
in padding, which then stands for missing bytes.
-/

namespace GossipDirectory

namespace Base32

open Bits

/-- The lower case character of a value below 32. -/
def digitChar (d : Nat) : Char :=
  Char.ofNat (if d < 26 then 97 + d else 24 + d)

/-- The value of an upper case character. -/
def digit? (c : Char) : Option Nat :=
  let n := c.toNat
  if 65 ≤ n ∧ n ≤ 90 then some (n - 65)
  else if 50 ≤ n ∧ n ≤ 55 then some (n - 24)
  else none

/-- Writes bytes without padding; a last incomplete character is filled up with zero bits. -/
def encode (bytes : Bytes) : List Char :=
  (pieces 4 (bitsOfBytes bytes)).map fun piece =>
    digitChar (ofBits (piece ++ List.replicate (5 - piece.length) false))

/-- Reads one group of eight characters, padding included. -/
def decodeGroup? (group : List Char) : Option Bytes := do
  let data := (group.reverse.dropWhile (· = '=')).reverse
  if group.length = 8 ∧ data.length ∈ [2, 4, 5, 7, 8] then
    let values ← data.mapM digit?
    let bits := values.flatMap (bitsOf 5)
    let whole := bits.length / 8 * 8
    if (bits.drop whole).all (! ·) then some (bytesOfBits (bits.take whole)) else none
  else none

/-- Reads upper case text whose length is a multiple of eight. -/
def decode? (cs : List Char) : Option Bytes := do
  let groups ← (pieces 7 cs).mapM decodeGroup?
  some groups.flatten

end Base32

end GossipDirectory
