import GossipDirectory.Options.Basic

/-!
# Option layers

A layer put on top of options replaces every setting that it gives: non-empty texts, numbers other
than zero, and the server switch if it is on. A switch that is on stays on.
-/

namespace GossipDirectory

/-- The text of a layer, unless it is empty. -/
def overText (below layer : String) : String :=
  if layer = "" then below else layer

/-- The number of a layer, unless it is zero. -/
def overNumber {α : Type} [DecidableEq α] [OfNat α 0] (below layer : α) : α :=
  if layer = 0 then below else layer

/-- Peer options under a layer. -/
def PeerOptions.merge (below layer : PeerOptions) : PeerOptions :=
  { seed := overText below.seed layer.seed
    bootstrap := overText below.bootstrap layer.bootstrap
    hostname := overText below.hostname layer.hostname
    listenPort := overNumber below.listenPort layer.listenPort
    lowWater := overNumber below.lowWater layer.lowWater
    highWater := overNumber below.highWater layer.highWater
    room := overText below.room layer.room
    dhtServerMode := below.dhtServerMode || layer.dhtServerMode
    peerstoreFile := overText below.peerstoreFile layer.peerstoreFile
    socksProxy := overText below.socksProxy layer.socksProxy }

/-- Mesh options under a layer. -/
def MeshOptions.merge (below layer : MeshOptions) : MeshOptions :=
  { d := overNumber below.d layer.d
    dlo := overNumber below.dlo layer.dlo
    dhi := overNumber below.dhi layer.dhi
    dout := overNumber below.dout layer.dout
    dscore := overNumber below.dscore layer.dscore
    dlazy := overNumber below.dlazy layer.dlazy
    prunePeers := overNumber below.prunePeers layer.prunePeers
    limit := overNumber below.limit layer.limit }

/-- Bus options under a layer. -/
def BusOptions.merge (below layer : BusOptions) : BusOptions :=
  { subject := overText below.subject layer.subject
    childId := overNumber below.childId layer.childId
    childProcessCount := overNumber below.childProcessCount layer.childProcessCount
    natsHost := overText below.natsHost layer.natsHost
    natsPort := overNumber below.natsPort layer.natsPort }

/-- Options under a layer. -/
def Options.merge (below layer : Options) : Options :=
  { logLevel := overText below.logLevel layer.logLevel
    logFile := overText below.logFile layer.logFile
    p2p := below.p2p.merge layer.p2p
    gossip := below.gossip.merge layer.gossip
    bus := below.bus.merge layer.bus }

end GossipDirectory
