import GossipDirectory.Address.Text
import GossipDirectory.Json.Printer
import GossipDirectory.Options.Basic

/-!
# Peer snapshots

Known peers are written to a file of their own for every shard, one record for each peer, as an
array in one line. The node itself and peers without addresses are left out, and at most one peer
more than the high watermark is written. A snapshot of nobody is not written at all.
-/

namespace GossipDirectory

/-- A peer with its addresses. -/
abbrev KnownPeer := PeerId × List Multiaddr

/-- A peer as a snapshot holds it. -/
structure PeerRecord where
  id : String
  addresses : List String
  deriving DecidableEq, Repr

/-- The record of a peer. -/
def PeerRecord.ofPeer (p : KnownPeer) : PeerRecord :=
  { id := p.1.text, addresses := p.2.map Multiaddr.toText }

namespace Snapshot

open Json

/-- The file of a shard's snapshot. -/
def path (base : String) (childId : UInt32) : String :=
  base ++ ".c" ++ Decimal.text childId.toNat ++ ".json"

/-- The peers worth writing down. -/
def worthy (me : PeerId) (known : List KnownPeer) : List KnownPeer :=
  known.filter fun (peer, addresses) => peer ≠ me && !addresses.isEmpty

/-- How many peers are written at most. -/
def bound (highWater : UInt64) : Nat :=
  min (UInt64.size - 1) (highWater.toNat + 1)

/-- The records of a snapshot. -/
def records (me : PeerId) (known : List KnownPeer) (highWater : UInt64) : List PeerRecord :=
  ((worthy me known).take (bound highWater)).map PeerRecord.ofPeer

/-- A written record. -/
def recordBytes (r : PeerRecord) : Bytes :=
  openBrace :: (separated [memberBytes "ID" (stringBytes r.id),
    memberBytes "Addrs" (openBracket ::
      (separated (r.addresses.map stringBytes) ++ [closeBracket]))] ++ [closeBrace])

/-- The content of a snapshot file. -/
def toBytes (rs : List PeerRecord) : Bytes :=
  openBracket :: (separated (rs.map recordBytes) ++ [closeBracket, 10])

/-- Writes a snapshot and counts its peers. -/
def persist (me : PeerId) (known : Except Failure (List KnownPeer)) (p : PeerOptions)
    (childId : UInt32) (files : FileTree) : Except Failure (Nat × FileTree) := do
  let rs := records me (← known) p.highWater
  if rs.isEmpty then return (0, files)
  match files.write (path p.peerstoreFile childId) (toBytes rs) with
  | .ok files => return (rs.length, files)
  | .error cause => .error (.io cause)

end Snapshot

end GossipDirectory
