import GossipDirectory.Text.Utf8

/-!
# Hexadecimal bytes

Two digits of either case make a byte; bytes are written in lower case. A text of odd byte length
is refused before any of its digits is looked at.
-/

namespace GossipDirectory

namespace Hex

/-- Why a text is no sequence of hexadecimal bytes. -/
inductive Malformed
  /-- The number of digits is odd. -/
  | oddLength
  /-- The byte at this position is no digit. -/
  | badDigit (byte : UInt8) (position : Nat)
  deriving DecidableEq, Repr

/-- The value of a hexadecimal digit. -/
def digit? (b : UInt8) : Option Nat :=
  let n := b.toNat
  if 48 ≤ n ∧ n ≤ 57 then some (n - 48)
  else if 97 ≤ n ∧ n ≤ 102 then some (n - 87)
  else if 65 ≤ n ∧ n ≤ 70 then some (n - 55)
  else none

/-- The lower case digit of a value below sixteen. -/
def digitChar (d : Nat) : Char :=
  Char.ofNat (if d < 10 then 48 + d else 87 + d)

/-- Reads digit pairs from byte `position` on. -/
def decodePairs (position : Nat) : Bytes → Except Malformed Bytes
  | hi :: lo :: rest =>
    match digit? hi, digit? lo with
    | none, _ => .error (.badDigit hi position)
    | some _, none => .error (.badDigit lo (position + 1))
    | some h, some l =>
      match decodePairs (position + 2) rest with
      | .ok bytes => .ok (UInt8.ofNat (16 * h + l) :: bytes)
      | .error e => .error e
  | _ => .ok []

/-- Reads the bytes that a text writes in hexadecimal. -/
def decode (s : String) : Except Malformed Bytes :=
  let bytes := Utf8.encode s
  if bytes.length % 2 = 1 then .error .oddLength else decodePairs 0 bytes

/-- The two digits of a byte. -/
def byteChars (b : UInt8) : List Char :=
  [digitChar (b.toNat / 16), digitChar (b.toNat % 16)]

/-- Writes bytes in hexadecimal. -/
def encode (bytes : Bytes) : String :=
  String.ofList (bytes.flatMap byteChars)

end Hex

end GossipDirectory
