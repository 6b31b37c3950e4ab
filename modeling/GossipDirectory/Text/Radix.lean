import GossipDirectory.Text.Utf8

/-!
# Numbers in positional notation

Bytes are read as the digits of one big number when the base of an alphabet is no power of two.
Leading zeros are kept, one byte for each.
-/

namespace GossipDirectory

namespace Radix

/-- The digits of a number in a base, most significant first; zero has none. -/
def digits (base : Nat) (n : Nat) : List Nat :=
  if _h : base < 2 ∨ n = 0 then [] else digits base (n / base) ++ [n % base]
termination_by n
decreasing_by exact Nat.div_lt_self (by omega) (by omega)

/-- The number with the given digits. -/
def ofDigits (base : Nat) (ds : List Nat) : Nat :=
  ds.foldl (fun n d => base * n + d) 0

/-- Reads the bytes that a text writes, if every character is a digit. -/
def decode? (alphabet : List Char) (cs : List Char) : Option Bytes := do
  let values ← cs.mapM fun c => alphabet.idxOf? c
  let zeros := values.takeWhile (· = 0)
  some (zeros.map (fun _ => 0) ++
    (digits 256 (ofDigits alphabet.length values)).map UInt8.ofNat)

end Radix

end GossipDirectory
