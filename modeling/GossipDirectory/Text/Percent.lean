import GossipDirectory.Text.Utf8
import GossipDirectory.Text.Hex

/-!
# Percent-encoded path segments

A percent sign and two hexadecimal digits stand for a byte; a percent sign that two digits do not
follow stands for itself. Control characters, the delimiters of a path and everything outside ASCII
are written encoded, with upper case digits.
-/

namespace GossipDirectory

namespace Percent

/-- Replaces every complete escape by its byte. -/
def decode : Bytes → Bytes
  | 37 :: hi :: lo :: rest =>
    match Hex.digit? hi, Hex.digit? lo with
    | some h, some l => UInt8.ofNat (16 * h + l) :: decode rest
    | _, _ => 37 :: decode (hi :: lo :: rest)
  | b :: rest => b :: decode rest
  | [] => []
termination_by bytes => bytes.length

/-- The text that a percent-encoded segment stands for, if its bytes are UTF-8. -/
def decodeText? (s : String) : Option String :=
  Utf8.decode? (decode (Utf8.encode s))

/-- Bytes that may not stand for themselves in a path segment. -/
def isReserved (b : UInt8) : Bool :=
  b < 32 || b ≥ 127 || [32, 34, 35, 37, 47, 60, 62, 63, 96, 123, 125].contains b

/-- The upper case digit of a value below sixteen. -/
def digitChar (d : Nat) : Char :=
  Char.ofNat (if d < 10 then 48 + d else 55 + d)

/-- Writes a text as a path segment. -/
def encodeText (s : String) : String :=
  String.ofList <| (Utf8.encode s).flatMap fun b =>
    if isReserved b then ['%', digitChar (b.toNat / 16), digitChar (b.toNat % 16)]
    else [Char.ofNat b.toNat]

end Percent

end GossipDirectory
