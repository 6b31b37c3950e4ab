import GossipDirectory.Proofs.Shard.Acceptance
import GossipDirectory.Swarm.ConnectionManager

/-!
# Usable options

Options are usable when nothing that a node needs is blank and everything that it will compute from
them can be computed. The defaults give every needed setting a value, no layer takes one away, and
the check refuses the rest, so options resolve to usable ones only. No more than that can be said:
all usable options can be resolved to.
-/

namespace GossipDirectory

theorem overText_empty (layer : String) : overText "" layer = layer := by
  unfold overText
  split
  case isTrue h => exact h.symm
  case isFalse => rfl

/-- A default adds nothing to a text exactly if the text is there. -/
theorem overText_eq_layer_iff {below layer : String} (h : below ≠ "") :
    overText below layer = layer ↔ layer ≠ "" := by
  unfold overText
  by_cases hlayer : layer = ""
  · simp [hlayer, h]
  · simp [hlayer]

/-- A default adds nothing to a number exactly if the number is not zero. -/
theorem overNumber_eq_layer_iff {α : Type} [DecidableEq α] [OfNat α 0] {below layer : α}
    (h : below ≠ 0) : overNumber below layer = layer ↔ layer ≠ 0 := by
  unfold overNumber
  by_cases hlayer : layer = 0
  · simp [hlayer, h]
  · simp [hlayer]

/-! ## What complete options give -/

theorem PeerOptions.merge_default_iff (p : PeerOptions) :
    PeerOptions.merge {} p = p ↔ p.listenPort ≠ 0 ∧ p.lowWater ≠ 0 ∧ p.highWater ≠ 0 ∧
      p.room ≠ "" ∧ p.peerstoreFile ≠ "" ∧ p.socksProxy ≠ "" := by
  cases p
  simp only [merge, PeerOptions.mk.injEq, overText_empty, Bool.false_or, true_and,
    overText_eq_layer_iff (show "samourai-p2p" ≠ "" by decide),
    overText_eq_layer_iff (show "-" ≠ "" by decide),
    overText_eq_layer_iff (show "127.0.0.1:9050" ≠ "" by decide),
    overNumber_eq_layer_iff (show (1042 : UInt16) ≠ 0 by decide),
    overNumber_eq_layer_iff (show (16 : UInt64) ≠ 0 by decide),
    overNumber_eq_layer_iff (show (40 : UInt64) ≠ 0 by decide)]

/-- The degrees of a mesh and the bounds that go with them. -/
def MeshOptions.degrees (m : MeshOptions) : List UInt64 :=
  [m.d, m.dlo, m.dhi, m.dout, m.dscore, m.dlazy, m.prunePeers, m.limit]

theorem MeshOptions.merge_default_iff (m : MeshOptions) :
    MeshOptions.merge {} m = m ↔ ∀ n ∈ m.degrees, n ≠ 0 := by
  cases m
  simp only [merge, degrees, MeshOptions.mk.injEq, List.forall_mem_cons, List.not_mem_nil,
    false_implies, implies_true, and_true,
    overNumber_eq_layer_iff (show (10 : UInt64) ≠ 0 by decide),
    overNumber_eq_layer_iff (show (8 : UInt64) ≠ 0 by decide),
    overNumber_eq_layer_iff (show (20 : UInt64) ≠ 0 by decide),
    overNumber_eq_layer_iff (show (5 : UInt64) ≠ 0 by decide),
    overNumber_eq_layer_iff (show (7 : UInt64) ≠ 0 by decide),
    overNumber_eq_layer_iff (show (40 : UInt64) ≠ 0 by decide)]

theorem BusOptions.merge_default_iff (b : BusOptions) :
    BusOptions.merge {} b = b ↔ b.subject ≠ "" ∧ b.natsHost ≠ "" ∧ b.natsPort ≠ 0 := by
  cases b
  simp only [merge, BusOptions.mk.injEq, overNumber_zero, true_and,
    overText_eq_layer_iff (show "ipc.server" ≠ "" by decide),
    overText_eq_layer_iff (show "localhost" ≠ "" by decide),
    overNumber_eq_layer_iff (show (4322 : UInt16) ≠ 0 by decide)]

namespace Options

/-- Options are complete exactly if no setting with a default is blank. -/
theorem complete_iff (o : Options) :
    o.Complete ↔ o.logLevel ≠ "" ∧ o.logFile ≠ "" ∧ PeerOptions.merge {} o.p2p = o.p2p ∧
      MeshOptions.merge {} o.gossip = o.gossip ∧ BusOptions.merge {} o.bus = o.bus := by
  cases o
  simp only [Complete, merge, Options.mk.injEq,
    overText_eq_layer_iff (show "info" ≠ "" by decide),
    overText_eq_layer_iff (show "-" ≠ "" by decide)]

/-! ## What checked options are good for -/

/-- The watermarks, the seed and the network interface are what the check looks at; it finds them
good exactly if everything that a node makes of them succeeds. -/
theorem validate_eq_ok_iff_made (o : Options) :
    o.validate = .ok () ↔ o.p2p.room ≠ "" ∧ o.p2p.lowWater ≤ o.p2p.highWater ∧
      (o.p2p.torEnabled → ∃ bytes, o.p2p.seedBytes = .ok bytes) ∧
      ∃ ip, ∀ port, o.p2p.clearnetListenAddress port = .ok (Multiaddr.ofHost ip port) := by
  have hhost : (IpAddress.parse? o.p2p.host.toList).isSome ↔
      ∃ ip, ∀ port, o.p2p.clearnetListenAddress port = .ok (Multiaddr.ofHost ip port) := by
    unfold PeerOptions.clearnetListenAddress
    cases IpAddress.parse? o.p2p.host.toList with
    | none => simp
    | some ip => simpa using ⟨ip, fun _ => rfl⟩
  rw [validate_eq_ok_iff, hhost, UInt64.not_lt]
  constructor
  · rintro ⟨hwater, hroom, hseed, hip⟩
    exact ⟨hroom, hwater, hseed, hip⟩
  · rintro ⟨hroom, hwater, hseed, hip⟩
    exact ⟨hwater, hroom, hseed, hip⟩

/-- The seed that is read has as many bytes as a secret key. -/
theorem length_of_seedBytes {p : PeerOptions} {bytes : Bytes} (h : p.seedBytes = .ok bytes) :
    bytes.length = 32 := by
  unfold PeerOptions.seedBytes at h
  split at h
  case h_1 => cases h
  case h_2 bytes' _ =>
    split at h
    case isTrue hlength =>
      cases h
      exact hlength
    case isFalse => cases h

theorem manager_made_iff {o : Options} :
    o.p2p.lowWater ≤ o.p2p.highWater ↔
      ∀ grace, ConnectionManager.make o.p2p.lowWater.toNat o.p2p.highWater.toNat grace =
        .ok { lowWater := o.p2p.lowWater.toNat, highWater := o.p2p.highWater.toNat, grace
              connected := [] } := by
  rw [UInt64.le_iff_toNat_le]
  constructor
  · intro h grace
    exact if_neg (Nat.not_lt.2 h)
  · intro h
    have hmade := h 0
    unfold ConnectionManager.make at hmade
    split at hmade
    case isTrue => cases hmade
    case isFalse hwater => exact Nat.not_lt.1 hwater

/-! ## Usable options -/

/-- Options that a node can run with. -/
structure Usable (o : Options) : Prop where
  logLevel : o.logLevel ≠ ""
  logFile : o.logFile ≠ ""
  room : o.p2p.room ≠ ""
  peerstoreFile : o.p2p.peerstoreFile ≠ ""
  socksProxy : o.p2p.socksProxy ≠ ""
  subject : o.bus.subject ≠ ""
  natsHost : o.bus.natsHost ≠ ""
  listenPort : o.p2p.listenPort ≠ 0
  natsPort : o.bus.natsPort ≠ 0
  lowWater : o.p2p.lowWater ≠ 0
  highWater : o.p2p.highWater ≠ 0
  degrees : ∀ n ∈ o.gossip.degrees, n ≠ 0
  watermarks : o.p2p.lowWater ≤ o.p2p.highWater
  /-- The connections can be managed, whatever the grace period. -/
  manager : ∀ grace, ConnectionManager.make o.p2p.lowWater.toNat o.p2p.highWater.toNat grace =
    .ok { lowWater := o.p2p.lowWater.toNat, highWater := o.p2p.highWater.toNat, grace
          connected := [] }
  /-- A node that hides behind an onion service can read its seed. -/
  seed : o.p2p.torEnabled → ∃ bytes, o.p2p.seedBytes = .ok bytes ∧ bytes.length = 32
  /-- Every port has a network address, so the port of the process and those of its shards do. -/
  listen : ∃ ip, ∀ port, o.p2p.clearnetListenAddress port = .ok (Multiaddr.ofHost ip port)

/-- Usable options are the complete ones that pass the check. -/
theorem usable_iff (o : Options) : o.Usable ↔ o.Complete ∧ o.validate = .ok () := by
  rw [complete_iff, PeerOptions.merge_default_iff, MeshOptions.merge_default_iff,
    BusOptions.merge_default_iff, validate_eq_ok_iff_made]
  constructor
  · intro h
    have hseed : o.p2p.torEnabled → ∃ bytes, o.p2p.seedBytes = .ok bytes := by
      intro htor
      obtain ⟨bytes, hbytes, -⟩ := h.seed htor
      exact ⟨bytes, hbytes⟩
    exact ⟨⟨h.logLevel, h.logFile,
      ⟨h.listenPort, h.lowWater, h.highWater, h.room, h.peerstoreFile, h.socksProxy⟩, h.degrees,
      h.subject, h.natsHost, h.natsPort⟩, h.room, h.watermarks, hseed, h.listen⟩
  · rintro ⟨⟨hlog, hlogFile, ⟨hport, hlow, hhigh, hroom, hpeerstore, hproxy⟩, hdegrees, hsubject,
      hnatsHost, hnatsPort⟩, -, hwater, hseed, hlisten⟩
    refine
      { logLevel := hlog, logFile := hlogFile, room := hroom, peerstoreFile := hpeerstore
        socksProxy := hproxy, subject := hsubject, natsHost := hnatsHost, listenPort := hport
        natsPort := hnatsPort, lowWater := hlow, highWater := hhigh, degrees := hdegrees
        watermarks := hwater, manager := manager_made_iff.1 hwater, seed := ?_
        listen := hlisten }
    intro htor
    obtain ⟨bytes, hbytes⟩ := hseed htor
    exact ⟨bytes, hbytes, length_of_seedBytes hbytes⟩

end Options

namespace Arguments

/-- Flags that give all settings of some options. -/
def spelling (o : Options) : Arguments where
  texts :=
    [(.log, o.logLevel), (.logFile, o.logFile), (.seed, o.p2p.seed),
      (.bootstrap, o.p2p.bootstrap), (.hostname, o.p2p.hostname), (.room, o.p2p.room),
      (.peerstoreFile, o.p2p.peerstoreFile), (.socksProxy, o.p2p.socksProxy),
      (.subject, o.bus.subject), (.natsHost, o.bus.natsHost)]
  ports := [(.listenPort, o.p2p.listenPort), (.natsPort, o.bus.natsPort)]
  ids := [(.childId, o.bus.childId), (.childProcessCount, o.bus.childProcessCount)]
  sizes :=
    [(.lowWater, o.p2p.lowWater), (.highWater, o.p2p.highWater), (.d, o.gossip.d),
      (.dlo, o.gossip.dlo), (.dhi, o.gossip.dhi), (.dout, o.gossip.dout),
      (.dscore, o.gossip.dscore), (.dlazy, o.gossip.dlazy), (.prunePeers, o.gossip.prunePeers),
      (.limit, o.gossip.limit)]
  dhtServer := some o.p2p.dhtServerMode

theorem layer_spelling (o : Options) : (spelling o).layer = o := by
  rfl

/-- Flags that give all settings of complete and checked options resolve to these options. -/
theorem toOptions_spelling {o : Options} (hcomplete : o.Complete) (hvalidate : o.validate = .ok ())
    (files : FileTree) : (spelling o).toOptions files = .ok o := by
  refine toOptions_eq_ok_iff.2 ⟨{}, rfl, ?_, hvalidate⟩
  rw [layer_spelling, hcomplete]
  rfl

end Arguments

namespace Options

/-- Whatever a command line gives and whatever its file says, the options that come out are usable;
and all usable options come out of some flags, with any files. -/
theorem resolved_iff_usable (o : Options) (files : FileTree) :
    (∀ line, optionsOfCommandLine line files = .ok o → o.Usable) ∧
      ((∃ a, Arguments.toOptions a files = .ok o) ↔ o.Usable) := by
  have hflags : (∃ a, Arguments.toOptions a files = .ok o) ↔ o.Usable := by
    rw [usable_iff]
    constructor
    · rintro ⟨a, ha⟩
      exact ⟨Arguments.complete_of_toOptions ha, Arguments.validate_of_toOptions ha⟩
    · rintro ⟨hcomplete, hvalidate⟩
      exact ⟨Arguments.spelling o, Arguments.toOptions_spelling hcomplete hvalidate files⟩
  refine ⟨?_, hflags⟩
  intro line hline
  obtain ⟨a, -, ha⟩ := optionsOfCommandLine_eq_ok hline
  exact hflags.1 ⟨a, ha⟩

/-- A file that blanks out what the defaults give. -/
def blankedOut : FileTree :=
  FileTree.empty.place "node.yaml" (Utf8.encode
    "loglevel: ''\np2p:\n  listenport: 0\n  highwater: 4\n  room: ''\ngossip:\n  dlo: 0")

/-- Flags that blank out more, and set up a shard behind an onion service. -/
def blankingLine : List String :=
  ["--config", "node.yaml", "--gossipD", "0", "--p2pSocksProxy=", "--p2pLowWater=4",
    "--p2pHostname", "::1", "--ipcNatsPort=0", "--ipcChildID=70000", "--p2pSeed",
    "0123456789abcdef0123456789ABCDEF0123456789abcdef0123456789ABCDEF"]

/-- The options that they resolve to: the defaults have come through wherever a value is blank. -/
def unblanked : Options where
  p2p :=
    { seed := "0123456789abcdef0123456789ABCDEF0123456789abcdef0123456789ABCDEF"
      hostname := "::1", lowWater := 4, highWater := 4 }
  bus := { childId := 70000 }

/-- The watermarks meet, the seed can be read, and the last port has an address. -/
theorem blankingLine_usable :
    optionsOfCommandLine blankingLine blankedOut = .ok unblanked ∧ unblanked.Usable ∧
      (∃ bytes, unblanked.p2p.seedBytes = .ok bytes ∧ bytes.length = 32) ∧
        ∃ ip, unblanked.p2p.clearnetListenAddress unblanked.effectiveListenPort =
          .ok (Multiaddr.ofHost ip 65535) := by
  have hline : optionsOfCommandLine blankingLine blankedOut = .ok unblanked :=
    eq_ok_of_toOption (by decide +kernel)
  have husable := (resolved_iff_usable unblanked blankedOut).1 blankingLine hline
  obtain ⟨ip, hip⟩ := husable.listen
  exact ⟨hline, husable, husable.seed (by decide), ip, hip _⟩

end Options

end GossipDirectory
