import GossipDirectory.Collection.Shuffle
import GossipDirectory.Json.Reader
import GossipDirectory.Peerstore.Snapshot

/-!
# Returning to known peers

A restarted node reads its snapshot and dials some of the peers again: all of them if they are no
more than half the low watermark, else one more than that half, drawn at random. Records may be
objects, with either of two names for each member, or arrays. One bad record spoils the snapshot; a
missing file counts as an empty one.
-/

namespace GossipDirectory

namespace Snapshot

open Json

/-- An array of strings. -/
def readStrings : Reader (List String) := fun bytes =>
  match skipSpace bytes with
  | openBracket :: rest => arrayItems expectString rest
  | rest => refuse "a sequence" rest

/-- The fields read so far. -/
structure Fields where
  id : Option String := none
  addresses : Option (List String) := none

/-- Reads one member of a record. -/
def field (fields : Fields) (name : String) : Reader Fields := fun bytes => do
  let rest ← skipColon bytes
  if name = "ID" ∨ name = "PeerID" then
    if fields.id.isSome then .error (.duplicateField "ID")
    else
      let (id, rest) ← expectString rest
      .ok ({ fields with id := some id }, rest)
  else if name = "Addrs" ∨ name = "Addresses" then
    if fields.addresses.isSome then .error (.duplicateField "Addrs")
    else
      let (addresses, rest) ← readStrings rest
      .ok ({ fields with addresses := some addresses }, rest)
  else
    let rest ← skipValue rest
    .ok (fields, rest)

/-- The record that its fields make. -/
def Fields.record (fields : Fields) : Except DecodeError PeerRecord :=
  match fields.id, fields.addresses with
  | none, _ => .error (.missingField "ID")
  | some _, none => .error (.missingField "Addrs")
  | some id, some addresses => .ok { id, addresses }

/-- Reads a record written as an array, after its opening bracket. -/
def readArrayRecord : Reader PeerRecord := fun bytes => do
  let tooShort (n : Nat) := DecodeError.invalidLength n "struct PeerRecord with 2 elements"
  match ← nextItem true expectString bytes with
  | (none, _) => .error (tooShort 0)
  | (some id, rest) =>
    match ← nextItem false readStrings rest with
    | (none, _) => .error (tooShort 1)
    | (some addresses, rest) =>
      let rest ← closeArray rest
      .ok ({ id, addresses }, rest)

/-- Reads a record. -/
def readRecord : Reader PeerRecord := fun bytes =>
  match skipSpace bytes with
  | openBrace :: rest => do
    let (fields, rest) ← objectMembers string field {} rest
    let r ← fields.record
    .ok (r, rest)
  | openBracket :: rest => readArrayRecord rest
  | rest => refuse "struct PeerRecord" rest

/-- Reads all records. -/
def readRecords : Reader (List PeerRecord) := fun bytes =>
  match skipSpace bytes with
  | openBracket :: rest => arrayItems readRecord rest
  | rest => refuse "a sequence" rest

/-- The address that a record lists. -/
def addressOf (text : String) : Except Failure Multiaddr :=
  match Multiaddr.parse text.toList with
  | .ok address => .ok address
  | .error cause => .error (.peerstore (.address text cause))

/-- The peer of a record. -/
def peerOf (r : PeerRecord) : Except Failure KnownPeer :=
  match PeerId.parse? r.id.toList with
  | none => .error (.peerstore (.peerId r.id))
  | some peer => (r.addresses.mapM addressOf).map fun addresses => (peer, addresses)

/-- The peers that the content of a file lists. -/
def ofBytes (path : String) (content : Bytes) : Except Failure (List KnownPeer) :=
  match document readRecords content with
  | .error cause => .error (.peerstore (.malformed path cause))
  | .ok rs => rs.mapM peerOf

/-- The peers of a snapshot file. -/
def load (files : FileTree) (path : String) : Except Failure (List KnownPeer) :=
  match files.read path with
  | .error .notFound => .ok []
  | .error cause => .error (.io cause)
  | .ok content => ofBytes path content

/-- The peers that are dialed again. -/
def select {α : Type} (draws : List Nat) (lowWater : UInt64) (known : List α) : List α :=
  let half := lowWater.toNat / 2
  if half < known.length then (shuffle draws known).take (half + 1) else known

/-- The dials of a node that returns, each with its addresses. The node does not dial itself. -/
def redials (me : PeerId) (p : PeerOptions) (childId : UInt32) (files : FileTree)
    (draws : List Nat) : Except Failure (List KnownPeer) := do
  let known ← load files (path p.peerstoreFile childId)
  return (select draws p.lowWater known).filter fun (peer, _) => peer ≠ me

/-- Dials peers and lists what became of each dial. They are begun in order; one that fails keeps no
other from being made. -/
def dialAll {σ : Type} (connect : σ → KnownPeer → Except Failure Unit × σ) (s : σ) :
    List KnownPeer → List (Except Failure Unit) × σ
  | [] => ([], s)
  | peer :: rest =>
    let (outcome, s) := connect s peer
    let (outcomes, s) := dialAll connect s rest
    (outcome :: outcomes, s)

/-- A node returns to the peers of its snapshot. The answer counts the dials, failed ones
included. -/
def reconnect {σ : Type} (connect : σ → KnownPeer → Except Failure Unit × σ) (s : σ) (me : PeerId)
    (p : PeerOptions) (childId : UInt32) (files : FileTree) (draws : List Nat) :
    Except Failure Nat × σ :=
  match redials me p childId files draws with
  | .error cause => (.error cause, s)
  | .ok dials =>
    let (outcomes, s) := dialAll connect s dials
    (.ok outcomes.length, s)

end Snapshot

end GossipDirectory
