import GossipDirectory.Text.Utf8

/-!
# SHA3-256

A sponge over 25 lanes of 64 bits, `lane x y` at place `x + 5 * y`, least significant byte first. A
block of 136 bytes is mixed into the first seventeen lanes and the lanes are permuted in 24 rounds.
-/

namespace GossipDirectory

namespace Sha3

/-- The 25 lanes. -/
abbrev Lanes := List UInt64

/-- The constants that the rounds mix into the first lane. -/
def roundConstants : List UInt64 :=
  [0x0000000000000001, 0x0000000000008082, 0x800000000000808a, 0x8000000080008000,
    0x000000000000808b, 0x0000000080000001, 0x8000000080008081, 0x8000000000008009,
    0x000000000000008a, 0x0000000000000088, 0x0000000080008009, 0x000000008000000a,
    0x000000008000808b, 0x800000000000008b, 0x8000000000008089, 0x8000000000008003,
    0x8000000000008002, 0x8000000000000080, 0x000000000000800a, 0x800000008000000a,
    0x8000000080008081, 0x8000000000008080, 0x0000000080000001, 0x8000000080008008]

/-- How far each lane is rotated. -/
def offsets : List UInt64 :=
  [0, 1, 62, 28, 27, 36, 44, 6, 55, 20, 3, 10, 43, 25, 39, 41, 45, 15, 21, 8, 18, 2, 61, 56, 14]

/-- Rotates a lane to the left. -/
def rotate (x : UInt64) (amount : UInt64) : UInt64 :=
  if amount = 0 then x else (x <<< amount) ||| (x >>> (64 - amount))

/-- The lane in a column and a row. -/
def lane (s : Lanes) (x y : Nat) : UInt64 :=
  s.getD (x % 5 + 5 * (y % 5)) 0

/-- The lanes that a function of column and row gives. -/
def build (f : Nat → Nat → UInt64) : Lanes :=
  (List.range 25).map fun i => f (i % 5) (i / 5)

/-- The parity of a column. -/
def parity (s : Lanes) (x : Nat) : UInt64 :=
  lane s x 0 ^^^ lane s x 1 ^^^ lane s x 2 ^^^ lane s x 3 ^^^ lane s x 4

/-- Mixes the parities of the neighbour columns into every lane. -/
def mixColumns (s : Lanes) : Lanes :=
  let c := (List.range 5).map (parity s)
  build fun x y => lane s x y ^^^ c.getD ((x + 4) % 5) 0 ^^^ rotate (c.getD ((x + 1) % 5) 0) 1

/-- Rotates every lane and moves it to its new place. -/
def moveLanes (s : Lanes) : Lanes :=
  let rotated := (s.zip offsets).map fun (w, amount) => rotate w amount
  build fun x y => lane rotated (x + 3 * y) x

/-- Combines the lanes of each row. -/
def combineRows (s : Lanes) : Lanes :=
  build fun x y => lane s x y ^^^ (~~~lane s (x + 1) y &&& lane s (x + 2) y)

/-- One round. -/
def round (s : Lanes) (constant : UInt64) : Lanes :=
  match combineRows (moveLanes (mixColumns s)) with
  | first :: rest => (first ^^^ constant) :: rest
  | [] => []

/-- The permutation of the lanes. -/
def permute (s : Lanes) : Lanes :=
  roundConstants.foldl round s

/-- The lane of eight bytes. -/
def laneOf (bytes : Bytes) : UInt64 :=
  bytes.foldr (fun b w => (w <<< 8) ||| b.toUInt64) 0

/-- The eight bytes of a lane. -/
def laneBytes (w : UInt64) : Bytes :=
  (List.range 8).map fun i => UInt8.ofNat (w.toNat / Nat.pow 256 i)

/-- Mixes a block of bytes into the lanes. -/
def mixIn (s : Lanes) (block : Bytes) : Lanes :=
  (List.range 25).map fun i => s.getD i 0 ^^^ laneOf ((block.drop (8 * i)).take 8)

/-- How many bytes are mixed in at a time. -/
def blockSize : Nat := 136

/-- The last block: the rest of the input between its mark and the closing bit. -/
def lastBlock (rest : Bytes) : Bytes :=
  if rest.length + 1 = blockSize then rest ++ [0x86]
  else rest ++ 0x06 :: (List.replicate (blockSize - 2 - rest.length) 0 ++ [0x80])

/-- Mixes in `count` whole blocks and then the rest. -/
def absorb : Nat → Lanes → Bytes → Lanes
  | 0, s, bytes => permute (mixIn s (lastBlock bytes))
  | count + 1, s, bytes =>
    absorb count (permute (mixIn s (bytes.take blockSize))) (bytes.drop blockSize)

/-- The 32 bytes of the digest. -/
def digest (bytes : Bytes) : Bytes :=
  ((absorb (bytes.length / blockSize) (List.replicate 25 0) bytes).take 4).flatMap laneBytes

end Sha3

end GossipDirectory
