import GossipDirectory.Text.Radix

/-!
# Base 58 text

A byte string is read as one big number and written with 58 digits that avoid look-alikes. Leading
zero bytes are kept as leading ones.
-/

namespace GossipDirectory

namespace Base58

open Radix

/-- The digits in the order of their values. -/
def alphabet : List Char :=
  "123456789ABCDEFGHJKLMNPQRSTUVWXYZabcdefghijkmnopqrstuvwxyz".toList

/-- Writes bytes. -/
def encode (bytes : Bytes) : List Char :=
  let zeros := bytes.takeWhile (· = 0)
  let number := ofDigits 256 (bytes.map UInt8.toNat)
  zeros.map (fun _ => '1') ++ (digits 58 number).map fun d => alphabet.getD d '1'

/-- Reads the bytes back, if every character is a digit. -/
def decode? (cs : List Char) : Option Bytes :=
  Radix.decode? alphabet cs

end Base58

end GossipDirectory
