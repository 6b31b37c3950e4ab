import GossipDirectory.Address.Text
import GossipDirectory.Collection.Shuffle
import GossipDirectory.Dht.Role
import GossipDirectory.Text.Blank

/-!
# Bootstrap peers

Bootstrap addresses are configured as one text with commas. At most two of them are used, drawn at
random when there are more, and each has to name its peer at the end.
-/

namespace GossipDirectory

/-- The entries of a list with commas, trimmed and without blank ones. -/
def bootstrapEntries (list : String) : List (List Char) :=
  ((splitAt ',' list.toList).map Blank.trim).filter fun entry => !entry.isEmpty

/-- The addresses of a list with commas. One bad entry spoils the list. -/
def parseBootstrapList (list : String) : Except Failure (List Multiaddr) :=
  (bootstrapEntries list).mapM fun entry => (Multiaddr.parse entry).mapError .invalidAddress

/-- How many bootstrap peers are used. -/
def maxBootstrapPeers : Nat := 2

/-- The bootstrap addresses that are used. -/
def selectBootstrap {α : Type} (draws : List Nat) (addresses : List α) : List α :=
  if maxBootstrapPeers < addresses.length then (shuffle draws addresses).take maxBootstrapPeers
  else addresses

/-- The peer of an address and the address without it. -/
def peerOfAddress (address : Multiaddr) : Except Failure (PeerId × Multiaddr) :=
  match address.splitPeer? with
  | some split => .ok split
  | none => .error (.invalidAddress (.noPeer address.toText))

/-- The name under which nodes look each other up. -/
def lookupProtocol : String := "/soroban/kad/1.0.0"

/-- The lookup network as a node enters it. -/
structure Dht where
  localPeer : PeerId
  mode : DhtMode
  peers : List (PeerId × Multiaddr)
  deriving Repr

/-- What the lookup protocol is held to when the network is entered. -/
def Dht.lookupMode (dht : Dht) : Option LookupMode :=
  dht.mode.lookupMode?

/-- Enters the lookup network. One used address without peer prevents it. -/
def Dht.enter (localPeer : PeerId) (mode : DhtMode) (bootstrap : List Multiaddr)
    (draws : List Nat) : Except Failure Dht := do
  let peers ← (selectBootstrap draws bootstrap).mapM peerOfAddress
  return { localPeer, mode, peers }

end GossipDirectory
