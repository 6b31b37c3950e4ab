import GossipDirectory.Text.Bits

/-!
# Alphabets of a few bits

Bytes are written with characters that stand for one to eight bits each, most significant bit first;
a last incomplete character is filled up with zero bits. Reading refuses characters that no byte
needs and bits left over that are not zero. Padded text is read by blocks that stand for whole bytes.
-/

namespace GossipDirectory

/-- Characters that stand for `width` bits each, in the order of their values. -/
structure BitAlphabet where
  width : Nat
  digits : List Char
  width_pos : 0 < width := by decide
  width_le : width ≤ 8 := by decide
  length_eq : digits.length = 1 <<< width := by decide +kernel
  nodup : digits.Nodup := by decide +kernel

namespace BitAlphabet

open Bits

def binary : BitAlphabet where
  width := 1
  digits := ['0', '1']

def octal : BitAlphabet where
  width := 3
  digits := "01234567".toList

def lowerHex : BitAlphabet where
  width := 4
  digits := "0123456789abcdef".toList

def upperHex : BitAlphabet where
  width := 4
  digits := "0123456789ABCDEF".toList

def lower32 : BitAlphabet where
  width := 5
  digits := "abcdefghijklmnopqrstuvwxyz234567".toList

def upper32 : BitAlphabet where
  width := 5
  digits := "ABCDEFGHIJKLMNOPQRSTUVWXYZ234567".toList

/-- Thirty-two digits that go on after the decimal ones. -/
def lowerHex32 : BitAlphabet where
  width := 5
  digits := "0123456789abcdefghijklmnopqrstuv".toList

def upperHex32 : BitAlphabet where
  width := 5
  digits := "0123456789ABCDEFGHIJKLMNOPQRSTUV".toList

/-- Thirty-two digits that are easy to read aloud. -/
def spoken32 : BitAlphabet where
  width := 5
  digits := "ybndrfg8ejkmcpqxot1uwisza345h769".toList

/-- The first 62 of 64 digits. -/
def alphanumeric : List Char :=
  "ABCDEFGHIJKLMNOPQRSTUVWXYZabcdefghijklmnopqrstuvwxyz0123456789".toList

def common64 : BitAlphabet where
  width := 6
  digits := alphanumeric ++ ['+', '/']

/-- Sixty-four digits that may stand in names of files and addresses of documents. -/
def url64 : BitAlphabet where
  width := 6
  digits := alphanumeric ++ ['-', '_']

/-- The sixty-four digits of garlic addresses. -/
def garlic64 : BitAlphabet where
  width := 6
  digits := alphanumeric ++ ['-', '~']

variable (a : BitAlphabet)

/-- Writes bytes without padding. -/
def encode (bytes : Bytes) : List Char :=
  (pieces (a.width - 1) (bitsOfBytes bytes)).map fun piece =>
    a.digits.getD (ofBits (piece ++ List.replicate (a.width - piece.length) false)) '='

/-- Reads text without padding. -/
def decode? (cs : List Char) : Option Bytes := do
  let values ← cs.mapM fun c => a.digits.idxOf? c
  let bits := values.flatMap (bitsOf a.width)
  let whole := bits.length / 8 * 8
  if bits.length % 8 < a.width ∧ (bits.drop whole).all (! ·) then
    some (bytesOfBits (bits.take whole))
  else none

/-- How many characters stand for whole bytes. -/
def block : Nat :=
  8 / Nat.gcd 8 a.width

/-- Reads a block; characters that are missing at its end are padding. -/
def decodeBlock? (block : List Char) : Option Bytes :=
  let data := (block.reverse.dropWhile (· = '=')).reverse
  if block.length = a.block ∧ ¬ data.isEmpty then a.decode? data else none

/-- Reads padded text. -/
def decodePadded? (cs : List Char) : Option Bytes := do
  let blocks ← (pieces (a.block - 1) cs).mapM a.decodeBlock?
  some blocks.flatten

end BitAlphabet

end GossipDirectory
