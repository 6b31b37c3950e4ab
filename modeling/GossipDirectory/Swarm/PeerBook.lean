import GossipDirectory.Address.Multiaddr
import GossipDirectory.Collection.Keyed

/-!
# Known peers

For every known peer the last eight distinct addresses are kept, in the order in which they came.
-/

namespace GossipDirectory

/-- The known addresses by peer. -/
structure PeerBook where
  entries : List (PeerId × List Multiaddr)
  deriving DecidableEq, Repr

namespace PeerBook

/-- How many addresses are kept of a peer. -/
def maxAddresses : Nat := 8

/-- No peer is known. -/
def empty : PeerBook :=
  { entries := [] }

/-- The known addresses of a peer. -/
def addresses (b : PeerBook) (peer : PeerId) : List Multiaddr :=
  (Keyed.get? peer b.entries).getD []

/-- Addresses with one more; the oldest makes room for a ninth. -/
def remember (known : List Multiaddr) (address : Multiaddr) : List Multiaddr :=
  if address ∈ known then known
  else if known.length = maxAddresses then known.drop 1 ++ [address]
  else known ++ [address]

/-- Notes an address of a peer. -/
def add (b : PeerBook) (peer : PeerId) (address : Multiaddr) : PeerBook :=
  { entries := Keyed.put peer (remember (b.addresses peer) address) b.entries }

/-- Forgets a peer; the answer says whether it was known. -/
def remove (b : PeerBook) (peer : PeerId) : Bool × PeerBook :=
  (Keyed.contains peer b.entries, { entries := Keyed.erase peer b.entries })

/-- The known peers with their addresses. -/
def peers (b : PeerBook) : List (PeerId × List Multiaddr) :=
  b.entries.filter fun (_, known) => !known.isEmpty

theorem mem_remember (known : List Multiaddr) (address : Multiaddr) :
    address ∈ remember known address := by
  rw [remember]
  split
  · assumption
  · split <;> exact List.mem_append_right _ List.mem_cons_self

@[simp] theorem addresses_add_self (b : PeerBook) (peer : PeerId) (address : Multiaddr) :
    (b.add peer address).addresses peer = remember (b.addresses peer) address := by
  rw [addresses, add, Keyed.get?_put_self, Option.getD_some]

theorem addresses_add_of_ne {peer other : PeerId} (h : other ≠ peer) (b : PeerBook)
    (address : Multiaddr) : (b.add peer address).addresses other = b.addresses other := by
  rw [addresses, add, Keyed.get?_put_of_ne h, addresses]

@[simp] theorem addresses_remove_self (b : PeerBook) (peer : PeerId) :
    (b.remove peer).2.addresses peer = [] := by
  rw [addresses, remove, Keyed.get?_erase_self, Option.getD_none]

theorem addresses_remove_of_ne {peer other : PeerId} (h : other ≠ peer) (b : PeerBook) :
    (b.remove peer).2.addresses other = b.addresses other := by
  rw [addresses, remove, Keyed.get?_erase_of_ne h, addresses]

end PeerBook

end GossipDirectory
