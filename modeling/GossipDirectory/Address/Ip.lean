import GossipDirectory.Text.Decimal

/-!
# Network addresses

IPv4 addresses are four decimal bytes without leading zeros. IPv6 addresses are eight hexadecimal
groups of which one run of zeros may be left out; the last two groups may be written as an IPv4
address. Written IPv6 addresses leave out the first longest run of at least two zeros.
-/

namespace GossipDirectory

/-- An IPv4 address. -/
structure Ipv4 where
  a : UInt8
  b : UInt8
  c : UInt8
  d : UInt8
  deriving DecidableEq, Repr

/-- An IPv6 address. -/
structure Ipv6 where
  groups : List UInt16
  length_groups : groups.length = 8
  deriving DecidableEq, Repr

/-- An address of either family. -/
inductive IpAddress
  | v4 (ip : Ipv4)
  | v6 (ip : Ipv6)
  deriving DecidableEq, Repr

/-- Splits at every occurrence of a character. -/
def splitAt (separator : Char) : List Char → List (List Char)
  | [] => [[]]
  | c :: rest =>
    if c = separator then [] :: splitAt separator rest
    else match splitAt separator rest with
      | [] => [[c]]
      | piece :: pieces => (c :: piece) :: pieces

namespace Ipv4

/-- The address that stands for every interface. -/
def unspecified : Ipv4 :=
  ⟨0, 0, 0, 0⟩

/-- The loopback address. -/
def loopback : Ipv4 :=
  ⟨127, 0, 0, 1⟩

/-- A byte of one to three digits without leading zeros. -/
def byte? (cs : List Char) : Option UInt8 :=
  if 3 < cs.length ∨ (1 < cs.length ∧ cs.head? = some '0') then none
  else ((Decimal.ofChars? cs).filter (· < 256)).map UInt8.ofNat

/-- Reads an address. -/
def parse? (cs : List Char) : Option Ipv4 :=
  match splitAt '.' cs with
  | [a, b, c, d] => do
    let a ← byte? a
    let b ← byte? b
    let c ← byte? c
    let d ← byte? d
    some ⟨a, b, c, d⟩
  | _ => none

/-- Writes an address. -/
def render (ip : Ipv4) : List Char :=
  Decimal.render ip.a.toNat ++ '.' :: (Decimal.render ip.b.toNat ++ '.' ::
    (Decimal.render ip.c.toNat ++ '.' :: Decimal.render ip.d.toNat))

end Ipv4

namespace Ipv6

/-- An address of eight groups, if there are so many. -/
def ofGroups? (groups : List UInt16) : Option Ipv6 :=
  if h : groups.length = 8 then some ⟨groups, h⟩ else none

/-- The address that stands for every interface. -/
def unspecified : Ipv6 :=
  ⟨List.replicate 8 0, rfl⟩

/-- The value of a hexadecimal digit. -/
def hexDigit? (c : Char) : Option Nat :=
  let n := c.toNat
  if 48 ≤ n ∧ n ≤ 57 then some (n - 48)
  else if 97 ≤ n ∧ n ≤ 102 then some (n - 87)
  else if 65 ≤ n ∧ n ≤ 70 then some (n - 55)
  else none

/-- A group of one to four hexadecimal digits. -/
def group? (cs : List Char) : Option UInt16 :=
  if cs.isEmpty ∨ 4 < cs.length then none
  else (cs.mapM hexDigit?).map fun ds => UInt16.ofNat (ds.foldl (fun n d => 16 * n + d) 0)

/-- The two groups of an embedded IPv4 address. -/
def embedded (ip : Ipv4) : List UInt16 :=
  [UInt16.ofNat (ip.a.toNat * 256 + ip.b.toNat), UInt16.ofNat (ip.c.toNat * 256 + ip.d.toNat)]

/-- The groups of pieces between colons; only the last may be an IPv4 address, and only if
`ipv4` allows it. -/
def pieces? (ipv4 : Bool) : List (List Char) → Option (List UInt16)
  | [] => some []
  | [last] =>
    match group? last with
    | some g => some [g]
    | none => if ipv4 then (Ipv4.parse? last).map embedded else none
  | piece :: rest => do
    let g ← group? piece
    let gs ← pieces? ipv4 rest
    some (g :: gs)

/-- The groups that a part of an address lists; an empty part lists none. -/
def part? (ipv4 : Bool) (cs : List Char) : Option (List UInt16) :=
  if cs.isEmpty then some [] else pieces? ipv4 (splitAt ':' cs)

/-- What stands before and after the first pair of colons. -/
def splitGap : List Char → Option (List Char × List Char)
  | ':' :: ':' :: rest => some ([], rest)
  | c :: rest => (splitGap rest).map fun (before, after) => (c :: before, after)
  | [] => none

/-- Reads an address. -/
def parse? (cs : List Char) : Option Ipv6 :=
  match splitGap cs with
  | none => do
    let groups ← part? true cs
    ofGroups? groups
  | some (before, after) => do
    let front ← part? false before
    let back ← part? true after
    if front.length + back.length ≤ 7 then
      ofGroups? (front ++ List.replicate (8 - front.length - back.length) 0 ++ back)
    else none

/-- The hexadecimal digits of a group, without leading zeros. -/
def groupChars (g : UInt16) : List Char :=
  Nat.toDigits 16 g.toNat

/-- Groups with colons between them. -/
def joined : List UInt16 → List Char
  | [] => []
  | [g] => groupChars g
  | g :: h :: rest => groupChars g ++ ':' :: joined (h :: rest)

/-- How many zero groups stand at the front. -/
def zeroRun (groups : List UInt16) : Nat :=
  (groups.takeWhile (· = 0)).length

/-- Start and length of the first longest run of zeros, among starts below `bound`. -/
def longestRun (groups : List UInt16) : Nat → Nat × Nat
  | 0 => (0, 0)
  | start + 1 =>
    let best := longestRun groups start
    let length := zeroRun (groups.drop start)
    if best.2 < length then (start, length) else best

/-- The IPv4 address that an address of the mapped range stands for. -/
def mapped? (ip : Ipv6) : Option Ipv4 :=
  match ip.groups with
  | [0, 0, 0, 0, 0, 0xffff, g, h] =>
    some ⟨UInt8.ofNat (g.toNat / 256), UInt8.ofNat (g.toNat % 256),
      UInt8.ofNat (h.toNat / 256), UInt8.ofNat (h.toNat % 256)⟩
  | _ => none

/-- Writes an address. -/
def render (ip : Ipv6) : List Char :=
  match ip.mapped? with
  | some v4 => "::ffff:".toList ++ v4.render
  | none =>
    let (start, length) := longestRun ip.groups 8
    if 1 < length then
      joined (ip.groups.take start) ++ ':' :: ':' :: joined (ip.groups.drop (start + length))
    else joined ip.groups

end Ipv6

namespace IpAddress

/-- Reads an address of either family. -/
def parse? (cs : List Char) : Option IpAddress :=
  match Ipv4.parse? cs with
  | some ip => some (.v4 ip)
  | none => (Ipv6.parse? cs).map .v6

end IpAddress

end GossipDirectory
