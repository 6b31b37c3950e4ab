import GossipDirectory.Text.Base58
import GossipDirectory.Text.BitAlphabet

/-!
# Text that names its base

The first character of a text says how the others write bytes.
-/

namespace GossipDirectory

namespace Multibase

/-- How characters write bytes. -/
inductive Spelling
  /-- The bytes of the text itself. -/
  | verbatim
  | bits (alphabet : BitAlphabet)
  | padded (alphabet : BitAlphabet)
  | number (digits : List Char)
  /-- A number whose letters may be of either case. -/
  | caseless (digits : List Char)

/-- The lower case of the first 36 digits. -/
def alphanumeric : List Char :=
  "0123456789abcdefghijklmnopqrstuvwxyz".toList

/-- The digits of base 58 with the small letters first. -/
def smallFirst58 : List Char :=
  "123456789abcdefghijkmnopqrstuvwxyzABCDEFGHJKLMNPQRSTUVWXYZ".toList

/-- The bases and the characters that name them. -/
def bases : List (Char × Spelling) :=
  [('\x00', .verbatim), ('0', .bits .binary), ('7', .bits .octal),
    ('9', .number "0123456789".toList), ('f', .bits .lowerHex), ('F', .bits .upperHex),
    ('b', .bits .lower32), ('B', .bits .upper32), ('c', .padded .lower32),
    ('C', .padded .upper32), ('v', .bits .lowerHex32), ('V', .bits .upperHex32),
    ('t', .padded .lowerHex32), ('T', .padded .upperHex32), ('h', .bits .spoken32),
    ('k', .caseless alphanumeric), ('K', .caseless alphanumeric), ('z', .number Base58.alphabet),
    ('Z', .number smallFirst58), ('m', .bits .common64), ('M', .padded .common64),
    ('u', .bits .url64), ('U', .padded .url64)]

/-- The base that a character names. -/
def base? (code : Char) : Option Spelling :=
  (bases.find? (·.1 = code)).map (·.2)

/-- Reads what characters write. -/
def Spelling.decode? (s : Spelling) (cs : List Char) : Option Bytes :=
  match s with
  | .verbatim => some (Utf8.encode (String.ofList cs))
  | .bits alphabet => alphabet.decode? cs
  | .padded alphabet => alphabet.decodePadded? cs
  | .number digits => Radix.decode? digits cs
  | .caseless digits => Radix.decode? digits (cs.map Char.toLower)

/-- Reads a text by its base. -/
def decode? : List Char → Option Bytes
  | [] => none
  | code :: cs => (base? code).bind (·.decode? cs)

end Multibase

end GossipDirectory
