import GossipDirectory.Dht.Bootstrap
import GossipDirectory.Identity
import GossipDirectory.Onion.Proxy
import GossipDirectory.Options.Basic

/-!
# Settings of a node's network

With a seed the node listens on the onion service of its identity, whose local side is bound first
and whose circuits go through a proxy; without one it listens on its network interface.
-/

namespace GossipDirectory

/-- What a network is started with. -/
structure SwarmSettings where
  identity : Identity
  listen : Multiaddr
  /-- The proxy of a node that hides behind an onion service. -/
  proxy : Option SocksProxy
  bootstrap : List Multiaddr
  mode : DhtMode
  room : String
  gossip : MeshOptions
  lowWater : Nat
  highWater : Nat
  deriving Repr

/-- Checks the degrees of a mesh. -/
def checkDegrees (g : MeshOptions) : Except Failure Unit :=
  if g.dlo < g.dout ∨ g.d < g.dlo ∨ g.dhi < g.d then .error (.gossip .degreeOrder)
  else if g.d.toNat < 2 * g.dout.toNat then .error (.gossip .outboundDegree)
  else .ok ()

namespace SwarmSettings

/-- The address to listen on, and the proxy for circuits. `bind` says whether a port of the
loopback interface can be bound. -/
def listenSide (o : Options) (identity : Identity) (bind : UInt16 → Bool) :
    Except Failure (Multiaddr × Option SocksProxy) := do
  let port := o.effectiveListenPort
  if o.p2p.torEnabled then
    let endpoint : OnionEndpoint := { serviceId := identity.serviceId, port }
    let listen ← endpoint.toMultiaddr
    if !bind port then .error (.io .denied)
    let proxy ← SocksProxy.parse o.p2p.socksProxy
    return (listen, some proxy)
  else
    let listen ← o.p2p.clearnetListenAddress port
    return (listen, none)

/-- The settings that options stand for. -/
def ofOptions (o : Options) (identity : Identity) (bind : UInt16 → Bool) :
    Except Failure SwarmSettings := do
  let (listen, proxy) ← listenSide o identity bind
  let bootstrap ← parseBootstrapList o.p2p.bootstrap
  return {
    identity, listen, proxy, bootstrap
    mode := dhtMode (nodeRole [listen] bootstrap) o.p2p.dhtServerMode
    room := o.p2p.room
    gossip := o.gossip
    lowWater := o.p2p.lowWater.toNat
    highWater := o.p2p.highWater.toNat }

end SwarmSettings

end GossipDirectory
