import GossipDirectory.Address.Multiaddr

/-!
# The role of a node in the lookup network

A node whose listen address starts one of the configured bootstrap addresses serves as a bootstrap
node. A listen address on the unspecified network address stands for every interface of its family.
-/

namespace GossipDirectory

/-- The role that a node's addresses give it. -/
inductive NodeRole
  | bootstrap
  | regular
  deriving DecidableEq, Repr

/-- The name of a role. -/
def NodeRole.name : NodeRole → String
  | .bootstrap => "bootstrap"
  | .regular => "regular"

/-- How a node takes part in lookups. -/
inductive DhtMode
  | client
  | server
  /-- The lookup protocol decides by itself. -/
  | auto
  deriving DecidableEq, Repr

/-- The mode that the lookup protocol is held to. -/
inductive LookupMode
  | client
  | server
  deriving DecidableEq, Repr

/-- The name of a way to take part. -/
def DhtMode.name : DhtMode → String
  | .client => "client"
  | .server => "server"
  | .auto => "auto"

/-- The name of a mode of the lookup protocol. -/
def LookupMode.name : LookupMode → String
  | .client => "client"
  | .server => "server"

/-- What the lookup protocol is told. -/
def DhtMode.lookupMode? : DhtMode → Option LookupMode
  | .client => some .client
  | .server => some .server
  | .auto => none

/-- A segment of a listen address matches a segment of another address. -/
def Segment.covers (own other : Segment) : Bool :=
  match own, other with
  | .ip4 ip, .ip4 other => ip = Ipv4.unspecified || ip = other
  | .ip6 ip, .ip6 other => ip = Ipv6.unspecified || ip = other
  | own, other => own = other

/-- A listen address matches the start of another address. -/
def Multiaddr.startsInside : (own other : Multiaddr) → Bool
  | [], _ => true
  | _ :: _, [] => false
  | s :: own, t :: other => s.covers t && startsInside own other

/-- The role of a node that listens on some addresses. -/
def nodeRole (listen bootstrap : List Multiaddr) : NodeRole :=
  if bootstrap.any fun b => listen.any fun l => l.startsInside b then .bootstrap else .regular

/-- The mode that a node starts in. -/
def dhtMode (role : NodeRole) (serverMode : Bool) : DhtMode :=
  match role with
  | .bootstrap => .server
  | .regular => if serverMode then .auto else .client

/-- The mode to change to when an address turns out to be listened on, if any. -/
def promotedMode? (current : DhtMode) (address : Multiaddr) (bootstrap : List Multiaddr) :
    Option DhtMode :=
  if current = .server then none
  else match nodeRole [address] bootstrap with
    | .bootstrap => some .server
    | .regular => none

end GossipDirectory
