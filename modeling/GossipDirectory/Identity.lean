import GossipDirectory.Crypto.Ed25519
import GossipDirectory.Crypto.Sha3
import GossipDirectory.Onion.Endpoint
import GossipDirectory.Options.Basic

/-!
# The identity of a node

Without a seed a node makes up a new key at every start. With one, the seed is the secret key of the
parent, and every shard hashes it with its own id.
-/

namespace GossipDirectory

/-- The public key of a node. -/
structure Identity where
  publicKey : Bytes
  deriving DecidableEq, Repr

namespace Identity

/-- The seed of a process: a shard's differs from its parent's. -/
def shardSeed (seed : Bytes) (childId : UInt32) : Bytes :=
  if childId = 0 then seed else Sha3.digest (seed ++ Sha512.bigEndian 4 childId.toNat)

/-- The identity of a seed. -/
def ofSeed (seed : Bytes) : Identity :=
  { publicKey := Ed25519.publicKey seed }

/-- The peer id. -/
def peer (i : Identity) : PeerId :=
  PeerId.ofPublicKey i.publicKey

/-- The name of the onion service. -/
def serviceId (i : Identity) : String :=
  OnionService.idOf i.publicKey

/-- The identity of a node; `fresh` is the seed that a node without one makes up. -/
def ofOptions (p : PeerOptions) (childId : UInt32) (fresh : Bytes) : Except Failure Identity :=
  if p.torEnabled then do
    let seed ← p.seedBytes
    return ofSeed (shardSeed seed childId)
  else .ok (ofSeed fresh)

end Identity

end GossipDirectory
