import GossipDirectory.CommandLine.Flag

/-!
# Shards

A parent starts each of its shards with a command line that repeats the parent's settings. The base
port is passed on as it is; the shard adds its id by itself.
-/

namespace GossipDirectory

/-- A shard as its parent starts it. -/
structure ChildDescriptor where
  childId : UInt32
  /-- The port that the shard listens on. -/
  listenPort : UInt16
  natsHost : String
  natsPort : UInt16
  deriving DecidableEq, Repr

/-- The shard of an id. -/
def ChildDescriptor.ofOptions (childId : UInt32) (o : Options) : ChildDescriptor :=
  { childId
    listenPort := childPort o.p2p.listenPort childId
    natsHost := o.bus.natsHost
    natsPort := o.bus.natsPort }

/-- A flag and its value as two arguments. -/
def flagArguments (f : Flag) (value : String) : List String :=
  [f.word, value]

/-- A flag and its value, unless the value is empty. -/
def givenArguments (f : Flag) (value : String) : List String :=
  if value = "" then [] else flagArguments f value

/-- The command line of a shard. The server switch comes last. -/
def childArguments (childId : UInt32) (o : Options) : List String :=
  flagArguments (.id .childId) (Decimal.text childId.toNat) ++
  flagArguments (.text .subject) o.bus.subject ++
  flagArguments (.text .natsHost) o.bus.natsHost ++
  flagArguments (.port .natsPort) (Decimal.text o.bus.natsPort.toNat) ++
  givenArguments (.text .seed) o.p2p.seed ++
  givenArguments (.text .bootstrap) o.p2p.bootstrap ++
  givenArguments (.text .hostname) o.p2p.hostname ++
  givenArguments (.text .room) o.p2p.room ++
  givenArguments (.port .listenPort) (Decimal.text o.p2p.listenPort.toNat) ++
  givenArguments (.size .lowWater) (Decimal.text o.p2p.lowWater.toNat) ++
  givenArguments (.size .highWater) (Decimal.text o.p2p.highWater.toNat) ++
  givenArguments (.text .peerstoreFile) o.p2p.peerstoreFile ++
  givenArguments (.text .socksProxy) o.p2p.socksProxy ++
  givenArguments (.size .d) (Decimal.text o.gossip.d.toNat) ++
  givenArguments (.size .dlo) (Decimal.text o.gossip.dlo.toNat) ++
  givenArguments (.size .dhi) (Decimal.text o.gossip.dhi.toNat) ++
  givenArguments (.size .dout) (Decimal.text o.gossip.dout.toNat) ++
  givenArguments (.size .dscore) (Decimal.text o.gossip.dscore.toNat) ++
  givenArguments (.size .dlazy) (Decimal.text o.gossip.dlazy.toNat) ++
  givenArguments (.size .prunePeers) (Decimal.text o.gossip.prunePeers.toNat) ++
  givenArguments (.size .limit) (Decimal.text o.gossip.limit.toNat) ++
  givenArguments (.text .log) o.logLevel ++
  if o.p2p.dhtServerMode then [Flag.dhtServer.word] else []

end GossipDirectory
