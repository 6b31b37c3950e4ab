import GossipDirectory.Proofs.Address.Legibility
import GossipDirectory.Proofs.Onion.ServiceNames
import GossipDirectory.Proofs.Shard.Ports
import GossipDirectory.Swarm.Spawn

/-!
# Listening on one's own onion address

A node behind an onion service listens on the address that its seed and its port make. The checks
of the options look at the seed and at the network interface, which such a node does not use, but
not at the port; the onion transport refuses ports that are too low and the last one. So checked
options let a process listen exactly if its base port and its id add up to a port in between.

## Implementation notes

A shard has the options of its parent and an id of its own. Its port stops at the last one, which is
refused, so for the question at hand the sum need not stop there.
-/

namespace GossipDirectory

/-- A port at which onion services are served. -/
def OnionPort (n : Nat) : Prop :=
  1024 ≤ n ∧ n < 65535

theorem onionPort_childPort_iff (base : UInt16) (id : UInt32) :
    OnionPort (childPort base id).toNat ↔ OnionPort (base.toNat + id.toNat) := by
  rw [toNat_childPort, OnionPort, OnionPort, lastPort]
  omega

namespace OnionEndpoint

variable {endpoint : OnionEndpoint} {address : Multiaddr} {hash key : Bytes} {port : UInt16}

/-! ## Addresses of endpoints -/

/-- An endpoint whose name spells 35 bytes has the address of these bytes, but none at port zero. -/
theorem toMultiaddr_encode_iff (hhash : hash.length = 35) :
    toMultiaddr { serviceId := String.ofList (Base32.encode hash), port } = .ok address ↔
      port ≠ 0 ∧ address = [.onion3 hash port] := by
  by_cases hport : port = 0
  · subst hport
    have hportless : ¬ Multiaddr.Legible [.onion3 hash 0] :=
      Multiaddr.not_legible_of_parse
        (Multiaddr.parse_render_portless (s := .onion3 hash 0) hhash (.inr ⟨hash, rfl⟩) [])
    rw [toMultiaddr_eq_ofText]
    constructor
    · exact fun h => absurd ⟨address, h⟩ hportless
    · exact fun h => absurd rfl h.1
  · rw [toMultiaddr_encode hhash hport, Except.ok.injEq]
    exact ⟨fun h => ⟨hport, h.symm⟩, fun h => h.2.symm⟩

/-- The service of a key has an address at every port but zero. -/
theorem toMultiaddr_idOf_iff (hkey : key.length = 32) :
    toMultiaddr { serviceId := OnionService.idOf key, port } = .ok address ↔
      port ≠ 0 ∧ address = [.onion3 (OnionService.nameBytes key) port] :=
  toMultiaddr_encode_iff (OnionService.length_nameBytes hkey)

/-- The transport listens for the hidden service of an endpoint exactly on the addresses that lead
to this endpoint. -/
theorem listenOn_own_iff (listener : Nat) :
    (OnionTransport.listenOn { service := some { endpoint } } listener address).1 = .ok () ↔
      ofMultiaddr address = .ok endpoint := by
  unfold OnionTransport.listenOn
  cases hread : ofMultiaddr address with
  | error failure => exact iff_of_false nofun nofun
  | ok read =>
      dsimp only
      split
      case isTrue heq => exact iff_of_true rfl (congrArg Except.ok heq.symm)
      case isFalse hne => exact iff_of_false nofun fun h => hne (Except.ok.inj h).symm

/-- An endpoint is served at an address: it is the address that the endpoint makes, the transport
listens there for the hidden service of the endpoint, and others can dial it. -/
structure ServedAt (endpoint : OnionEndpoint) (address : Multiaddr) : Prop where
  made : endpoint.toMultiaddr = .ok address
  listens : ∀ listener,
    (OnionTransport.listenOn { service := some { endpoint } } listener address).1 = .ok ()
  dialed : isOnionAddress address = true

theorem servedAt_iff :
    endpoint.ServedAt address ↔
      endpoint.toMultiaddr = .ok address ∧ ofMultiaddr address = .ok endpoint := by
  constructor
  · exact fun h => ⟨h.made, (listenOn_own_iff 0).1 (h.listens 0)⟩
  · rintro ⟨hmade, hread⟩
    refine ⟨hmade, fun listener => (listenOn_own_iff listener).2 hread, ?_⟩
    rw [isOnionAddress, hread]

/-- The service of a key is served exactly at the ports of onion services. -/
theorem exists_servedAt_iff (hkey : key.length = 32) :
    (∃ address, ServedAt { serviceId := OnionService.idOf key, port } address) ↔
      OnionPort port.toNat := by
  constructor
  · rintro ⟨address, h⟩
    obtain ⟨-, hread⟩ := servedAt_iff.1 h
    obtain ⟨-, ⟨-, hrange⟩, -⟩ := ofMultiaddr_eq_ok_iff.1 hread
    exact hrange
  · intro hrange
    have hport : port ≠ 0 := by
      rintro rfl
      exact absurd hrange.1 (by decide)
    refine ⟨[.onion3 (OnionService.nameBytes key) port], servedAt_iff.2 ⟨?_, ?_⟩⟩
    · exact (toMultiaddr_idOf_iff hkey).2 ⟨hport, rfl⟩
    · exact (ofMultiaddr_onion _ _).trans (if_pos hrange)

theorem exists_toMultiaddr_iff (hkey : key.length = 32) :
    (∃ address, toMultiaddr { serviceId := OnionService.idOf key, port } = .ok address) ↔
      port ≠ 0 := by
  constructor
  · rintro ⟨address, hmade⟩
    exact ((toMultiaddr_idOf_iff hkey).1 hmade).1
  · exact fun hport => ⟨_, (toMultiaddr_idOf_iff hkey).2 ⟨hport, rfl⟩⟩

/-- If the address that the service of a key makes leads to any endpoint, the service is served. -/
theorem servedAt_of_read (hkey : key.length = 32)
    (hmade : toMultiaddr { serviceId := OnionService.idOf key, port } = .ok address)
    {read : OnionEndpoint} (hread : ofMultiaddr address = .ok read) :
    ServedAt { serviceId := OnionService.idOf key, port } address := by
  obtain ⟨-, rfl⟩ := (toMultiaddr_idOf_iff hkey).1 hmade
  refine servedAt_iff.2 ⟨hmade, ?_⟩
  rw [ofMultiaddr_onion] at hread ⊢
  split
  case isTrue => rfl
  case isFalse hrange =>
    rw [if_neg hrange] at hread
    cases hread

end OnionEndpoint

/-! ## Processes -/

namespace Options

variable {o : Options}

/-- The options of the process with an id. -/
def withId (o : Options) (id : UInt32) : Options :=
  { o with bus := { o.bus with childId := id } }

/-- The process that runs with the options, or one of its shards. -/
def HasProcess (o : Options) (id : UInt32) : Prop :=
  id = o.bus.childId ∨ 1 ≤ id ∧ id ≤ o.bus.childProcessCount

/-- The onion service of a process with an identity. -/
def ownEndpoint (o : Options) (identity : Identity) : OnionEndpoint :=
  { serviceId := identity.serviceId, port := o.effectiveListenPort }

/-- The process with an id has an identity whatever is drawn at random, and the onion service of
this identity is served at its port. -/
def Listens (o : Options) (id : UInt32) : Prop :=
  ∃ identity, (∀ fresh, Identity.ofOptions o.p2p id fresh = .ok identity) ∧
    ∃ address, ((o.withId id).ownEndpoint identity).ServedAt address

/-- What a node behind an onion service needs besides its own address: its port can be bound, and
its proxy and its bootstrap addresses can be read. -/
def Equipped (o : Options) (bind : UInt16 → Bool) : Prop :=
  bind o.effectiveListenPort = true ∧ (∃ proxy, SocksProxy.parse o.p2p.socksProxy = .ok proxy) ∧
    ∃ bootstrap, parseBootstrapList o.p2p.bootstrap = .ok bootstrap

/-- Checked options with a seed give every process a key. -/
theorem exists_identity (hvalid : o.validate = .ok ()) (htor : o.p2p.torEnabled) (id : UInt32) :
    ∃ key : Bytes, key.length = 32 ∧
      ∀ fresh, Identity.ofOptions o.p2p id fresh = .ok { publicKey := key } := by
  obtain ⟨-, -, hseed, -⟩ := validate_eq_ok_iff.1 hvalid
  obtain ⟨seed, hseed⟩ := hseed htor
  refine ⟨Ed25519.publicKey (Identity.shardSeed seed id), ?_, fun fresh => ?_⟩
  · simp [Ed25519.publicKey, Ed25519.bytesOf]
  · rw [Identity.ofOptions, if_pos htor, hseed]
    rfl

theorem listens_iff (hvalid : o.validate = .ok ()) (htor : o.p2p.torEnabled) (id : UInt32) :
    o.Listens id ↔ OnionPort (o.p2p.listenPort.toNat + id.toNat) := by
  obtain ⟨key, hkey, hidentity⟩ := exists_identity hvalid htor id
  rw [← onionPort_childPort_iff, ← OnionEndpoint.exists_servedAt_iff hkey]
  constructor
  · rintro ⟨identity, hother, hserved⟩
    obtain rfl : { publicKey := key } = identity :=
      Except.ok.inj ((hidentity []).symm.trans (hother []))
    exact hserved
  · exact fun hserved => ⟨{ publicKey := key }, hidentity, hserved⟩

/-- All processes listen exactly if the own port and the first and last port of the shards are in
range. -/
theorem forall_listens_iff (hvalid : o.validate = .ok ()) (htor : o.p2p.torEnabled) :
    (∀ id, o.HasProcess id → o.Listens id) ↔
      OnionPort (o.p2p.listenPort.toNat + o.bus.childId.toNat) ∧
        (1 ≤ o.bus.childProcessCount → OnionPort (o.p2p.listenPort.toNat + 1) ∧
          OnionPort (o.p2p.listenPort.toNat + o.bus.childProcessCount.toNat)) := by
  simp only [listens_iff hvalid htor]
  constructor
  · intro h
    refine ⟨h _ (.inl rfl), fun hsome => ⟨?_, ?_⟩⟩
    · exact h 1 (.inr ⟨UInt32.le_refl 1, hsome⟩)
    · exact h _ (.inr ⟨hsome, UInt32.le_refl _⟩)
  · rintro ⟨hown, hshards⟩ id (rfl | ⟨hfirst, hlast⟩)
    · exact hown
    · obtain ⟨⟨hlow, -⟩, -, hhigh⟩ := hshards (UInt32.le_trans hfirst hlast)
      rw [UInt32.le_iff_toNat_le] at hfirst hlast
      change 1 ≤ id.toNat at hfirst
      exact ⟨by omega, by omega⟩

end Options

/-! ## Bringing up the network -/

namespace SwarmSettings

variable {o : Options} {identity : Identity} {bind : UInt16 → Bool} {s : SwarmSettings}

/-- The settings of a node with a seed have the address of its endpoint, and a proxy. They are made
if there is such an address, its port can be bound, and proxy and bootstrap list can be read. -/
theorem ofOptions_eq_ok_iff (htor : o.p2p.torEnabled) :
    SwarmSettings.ofOptions o identity bind = .ok s ↔
      ∃ listen proxy bootstrap, (o.ownEndpoint identity).toMultiaddr = .ok listen ∧
        bind o.effectiveListenPort = true ∧ SocksProxy.parse o.p2p.socksProxy = .ok proxy ∧
        parseBootstrapList o.p2p.bootstrap = .ok bootstrap ∧
        s = { identity, listen, proxy := some proxy, bootstrap
              mode := dhtMode (nodeRole [listen] bootstrap) o.p2p.dhtServerMode
              room := o.p2p.room, gossip := o.gossip, lowWater := o.p2p.lowWater.toNat
              highWater := o.p2p.highWater.toNat } := by
  unfold ofOptions listenSide
  rw [if_pos htor]
  constructor
  · intro hs
    obtain ⟨⟨listen, proxy?⟩, hside, hs⟩ := bind_eq_ok.1 hs
    obtain ⟨bootstrap, hbootstrap, hs⟩ := bind_eq_ok.1 hs
    obtain ⟨made, hmade, hside⟩ := bind_eq_ok.1 hside
    split at hside
    case isTrue => cases hside
    case isFalse hbind =>
      obtain ⟨proxy, hproxy, hside⟩ := bind_eq_ok.1 hside
      cases hside
      cases hs
      exact ⟨listen, proxy, bootstrap, hmade, by simpa using hbind, hproxy, hbootstrap, rfl⟩
  · rintro ⟨listen, proxy, bootstrap, hmade, hbind, hproxy, hbootstrap, rfl⟩
    refine bind_eq_ok.2 ⟨(listen, some proxy), ?_, bind_eq_ok.2 ⟨bootstrap, hbootstrap, rfl⟩⟩
    refine bind_eq_ok.2 ⟨listen, hmade, ?_⟩
    rw [if_neg (by simpa using hbind)]
    exact bind_eq_ok.2 ⟨proxy, hproxy, rfl⟩

theorem exists_ofOptions_iff (htor : o.p2p.torEnabled) :
    (∃ s, SwarmSettings.ofOptions o identity bind = .ok s) ↔
      (∃ address, (o.ownEndpoint identity).toMultiaddr = .ok address) ∧ o.Equipped bind := by
  simp only [ofOptions_eq_ok_iff htor]
  constructor
  · rintro ⟨s, listen, proxy, bootstrap, hmade, hbind, hproxy, hbootstrap, -⟩
    exact ⟨⟨listen, hmade⟩, hbind, ⟨proxy, hproxy⟩, bootstrap, hbootstrap⟩
  · rintro ⟨⟨listen, hmade⟩, hbind, ⟨proxy, hproxy⟩, bootstrap, hbootstrap⟩
    exact ⟨_, listen, proxy, bootstrap, hmade, hbind, hproxy, hbootstrap, rfl⟩

/-- A node with a proxy can listen on its address exactly if the address leads to an endpoint. -/
theorem canListen_iff {proxy : SocksProxy} (hproxy : s.proxy = some proxy) (m : Machine) :
    s.canListen m = true ↔ ∃ endpoint, OnionEndpoint.ofMultiaddr s.listen = .ok endpoint := by
  unfold canListen
  rw [hproxy]
  cases hread : OnionEndpoint.ofMultiaddr s.listen with
  | error failure => exact iff_of_false nofun nofun
  | ok endpoint =>
      dsimp only
      rw [(OnionEndpoint.listenOn_own_iff 0).2 hread]
      exact iff_of_true rfl ⟨endpoint, rfl⟩

end SwarmSettings

theorem Worker.canListen_of_spawn {s : SwarmSettings} {m : Machine} {draws : List Nat} {w : Worker}
    (hw : Worker.spawn s m draws = .ok w) : s.canListen m = true := by
  unfold spawn at hw
  obtain ⟨_, -, hw⟩ := bind_eq_ok.1 hw
  obtain ⟨_, -, hw⟩ := bind_eq_ok.1 hw
  obtain ⟨_, -, hw⟩ := bind_eq_ok.1 hw
  split at hw
  case isTrue => cases hw
  case isFalse hlisten => simpa using hlisten

namespace Options

variable {o : Options}

/-- The settings of a process are made unless its port is zero or it lacks something else. They have
the address of its onion service, which can be listened on exactly if the process listens. -/
theorem settings_of_process (hvalid : o.validate = .ok ()) (htor : o.p2p.torEnabled) {id : UInt32}
    {fresh : Bytes} {identity : Identity} (bind : UInt16 → Bool)
    (hidentity : Identity.ofOptions o.p2p id fresh = .ok identity) :
    ((∃ s, SwarmSettings.ofOptions (o.withId id) identity bind = .ok s) ↔
      (o.withId id).effectiveListenPort ≠ 0 ∧ (o.withId id).Equipped bind) ∧
    ∀ s, SwarmSettings.ofOptions (o.withId id) identity bind = .ok s →
      ((o.withId id).ownEndpoint identity).toMultiaddr = .ok s.listen ∧
        ∀ m, s.canListen m = true ↔ o.Listens id := by
  obtain ⟨key, hkey, hall⟩ := exists_identity hvalid htor id
  obtain rfl : { publicKey := key } = identity :=
    Except.ok.inj ((hall fresh).symm.trans hidentity)
  have htor' : (o.withId id).p2p.torEnabled := htor
  constructor
  · rw [SwarmSettings.exists_ofOptions_iff htor', ← OnionEndpoint.exists_toMultiaddr_iff hkey]
    rfl
  · intro s hs
    obtain ⟨listen, proxy, bootstrap, hmade, -, -, -, rfl⟩ :=
      (SwarmSettings.ofOptions_eq_ok_iff htor').1 hs
    refine ⟨hmade, fun m => ?_⟩
    rw [SwarmSettings.canListen_iff rfl]
    constructor
    · rintro ⟨read, hread⟩
      exact ⟨_, hall, listen, OnionEndpoint.servedAt_of_read hkey hmade hread⟩
    · rintro ⟨identity, hother, address, hserved⟩
      obtain rfl : { publicKey := key } = identity :=
        Except.ok.inj ((hall fresh).symm.trans (hother fresh))
      obtain ⟨hagain, hread⟩ := OnionEndpoint.servedAt_iff.1 hserved
      obtain rfl : address = listen := Except.ok.inj (hagain.symm.trans hmade)
      exact ⟨_, hread⟩

/-- With checked options and a seed, a process listens on its own onion address, and others dial it
there, exactly if base port and id add up to a port of onion services; so all processes do exactly
if this holds of the own port and of the first and last port of the shards. The settings of a
process are made as soon as its port is not zero, but a network is brought up only if its process
listens. The checks let every base port pass. -/
theorem listens_iff_onionPort (o : Options) (hvalid : o.validate = .ok ())
    (htor : o.p2p.torEnabled) :
    (∀ id, o.Listens id ↔ OnionPort (o.p2p.listenPort.toNat + id.toNat)) ∧
    ((∀ id, o.HasProcess id → o.Listens id) ↔
      OnionPort (o.p2p.listenPort.toNat + o.bus.childId.toNat) ∧
        (1 ≤ o.bus.childProcessCount → OnionPort (o.p2p.listenPort.toNat + 1) ∧
          OnionPort (o.p2p.listenPort.toNat + o.bus.childProcessCount.toNat))) ∧
    (∀ id fresh identity bind, Identity.ofOptions o.p2p id fresh = .ok identity →
      ((∃ s, SwarmSettings.ofOptions (o.withId id) identity bind = .ok s) ↔
        (o.withId id).effectiveListenPort ≠ 0 ∧ (o.withId id).Equipped bind) ∧
      ∀ s, SwarmSettings.ofOptions (o.withId id) identity bind = .ok s →
        ((o.withId id).ownEndpoint identity).toMultiaddr = .ok s.listen ∧
        ∀ m, (s.canListen m = true ↔ o.Listens id) ∧
          ∀ draws w, Worker.spawn s m draws = .ok w → o.Listens id) ∧
    ∀ listenPort, Options.validate { o with p2p := { o.p2p with listenPort } } = .ok () := by
  refine ⟨listens_iff hvalid htor, forall_listens_iff hvalid htor, ?settings, ?unchecked⟩
  case settings =>
    intro id fresh identity bind hidentity
    obtain ⟨hmade, hsettings⟩ := settings_of_process hvalid htor bind hidentity
    refine ⟨hmade, fun s hs => ?_⟩
    obtain ⟨haddress, hcan⟩ := hsettings s hs
    exact ⟨haddress, fun m => ⟨hcan m, fun draws w hw => (hcan m).1 (Worker.canListen_of_spawn hw)⟩⟩
  case unchecked =>
    intro listenPort
    rw [validate_eq_ok_iff] at hvalid ⊢
    exact hvalid

/-- A parent behind an onion service with a high base port and many shards. -/
def crowded : Options where
  p2p :=
    { seed := "0123456789abcdef0123456789ABCDEF0123456789abcdef0123456789ABCDEF"
      listenPort := 65000 }
  bus := { childProcessCount := 600 }

/-- The options are accepted, and shard 534 listens. The next one has the last port: its settings
are made, but it cannot listen. With a base port of 80, which is accepted too, the parent cannot. -/
theorem crowded_unserved :
    optionsOfCommandLine ["--p2pListenPort=65000", "--ipcChildProcessCount=600", "--p2pSeed",
        "0123456789abcdef0123456789ABCDEF0123456789abcdef0123456789ABCDEF"] .empty = .ok crowded ∧
      crowded.validate = .ok () ∧ crowded.p2p.torEnabled = true ∧
      crowded.Listens 534 ∧ crowded.HasProcess 535 ∧ ¬ crowded.Listens 535 ∧
      (∃ identity s, (∀ fresh, Identity.ofOptions crowded.p2p 535 fresh = .ok identity) ∧
        SwarmSettings.ofOptions (crowded.withId 535) identity (fun _ => true) = .ok s ∧
        ∀ m, s.canListen m = false) ∧
      (let low := { crowded with p2p := { crowded.p2p with listenPort := 80 } }
      low.validate = .ok () ∧ ¬ low.Listens 0) := by
  have hline : optionsOfCommandLine ["--p2pListenPort=65000", "--ipcChildProcessCount=600",
      "--p2pSeed", "0123456789abcdef0123456789ABCDEF0123456789abcdef0123456789ABCDEF"] .empty =
        .ok crowded :=
    eq_ok_of_toOption (by decide +kernel)
  have hvalid := validate_of_commandLine hline
  have htor : crowded.p2p.torEnabled = true := by decide
  obtain ⟨hlistens, -, hsettings, hports⟩ := listens_iff_onionPort crowded hvalid htor
  obtain ⟨hlow, -⟩ := listens_iff_onionPort _ (hports 80) htor
  have hlast : ¬ crowded.Listens 535 := fun h => absurd ((hlistens 535).1 h).2 (by decide)
  obtain ⟨key, -, hidentity⟩ := exists_identity hvalid htor 535
  obtain ⟨hmade, hrefused⟩ := hsettings 535 [] _ (fun _ => true) (hidentity [])
  have hproxy : SocksProxy.parse "127.0.0.1:9050" = .ok { host := "127.0.0.1", port := 9050 } :=
    eq_ok_of_toOption (by decide +kernel)
  obtain ⟨s, hs⟩ := hmade.2 ⟨by decide, rfl, ⟨_, hproxy⟩, [], rfl⟩
  refine ⟨hline, hvalid, htor, (hlistens 534).2 ⟨by decide, by decide⟩,
    .inr ⟨by decide, by decide⟩, hlast, ⟨_, s, hidentity, hs, fun m => ?_⟩, hports 80, fun h => ?_⟩
  · rw [Bool.eq_false_iff]
    exact fun hcan => hlast ((((hrefused s hs).2 m).1).1 hcan)
  · exact absurd ((hlow 0).1 h).1 (by decide)

end Options

end GossipDirectory
