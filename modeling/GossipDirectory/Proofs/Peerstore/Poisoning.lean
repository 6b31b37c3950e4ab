import GossipDirectory.Proofs.Address.Legibility
import GossipDirectory.Proofs.Mesh.LifeCycle
import GossipDirectory.Proofs.Peerstore.RoundTrip

/-!
# Snapshots that keep a node from starting

Peers tell their listen addresses as bytes, and the book of known peers takes whatever they tell. A
snapshot writes the addresses as texts. If one of them does not read back, the whole snapshot is
refused, and with it every start of a node that returns to known peers.

## Implementation notes

What is shown holds for every snapshot that was written, whoever told the addresses. That a peer can
have any address written is `Worker.identified_known`.
-/

namespace GossipDirectory

/-! ## What peers tell -/

/-- The address that a peer tells last is known, whatever its segments. -/
theorem Worker.identified_known (w : Worker) (now : Millis) (meshPeers : List PeerId)
    (peer : PeerId) (addresses : List Multiaddr) (address : Multiaddr) :
    ∃ known, (peer, known) ∈
        (w.handleEvent now meshPeers (.identified peer (addresses ++ [address]))).1.book.peers ∧
      address ∈ known := by
  rw [Worker.handleEvent, List.foldl_append]
  generalize addresses.foldl (fun w address => w.remember peer address) w = told
  have haddress := PeerBook.mem_remember (told.book.addresses peer) address
  refine ⟨_, List.mem_filter.2 ⟨Keyed.mem_put_self peer _ _, ?_⟩, haddress⟩
  cases h : PeerBook.remember (told.book.addresses peer) address with
  | nil =>
      rw [h] at haddress
      exact absurd haddress List.not_mem_nil
  | cons => rfl

namespace Snapshot

/-! ## Reading a snapshot back -/

theorem addressOf_isOk_iff (address : Multiaddr) :
    (∃ read, addressOf address.toText = .ok read) ↔ address.Legible := by
  rw [Multiaddr.legible_iff, addressOf, Multiaddr.toText, String.toList_ofList]
  cases Multiaddr.parse address.render with
  | error e => simp
  | ok read => simp

/-- The record of a peer stands for a peer when all the addresses do. -/
theorem peerOf_isOk_iff {peer : KnownPeer} (hid : peer.1.WellFormed) :
    (∃ read, peerOf (PeerRecord.ofPeer peer) = .ok read) ↔
      ∀ address ∈ peer.2, address.Legible := by
  have haddresses : (∃ read, (peer.2.map Multiaddr.toText).mapM addressOf = .ok read) ↔
      ∀ address ∈ peer.2, address.Legible := by
    rw [mapM_isOk_iff, List.forall_mem_map]
    exact forall₂_congr fun address _ => addressOf_isOk_iff address
  rw [← haddresses, peerOf, PeerRecord.ofPeer, PeerId.text, String.toList_ofList,
    PeerId.parse?_render hid]
  dsimp only
  cases (peer.2.map Multiaddr.toText).mapM addressOf with
  | error e => simp [Except.map]
  | ok read => simp [Except.map]

variable {me : PeerId} {known : List KnownPeer} {o : Options} {files files' : FileTree}

/-- The snapshot that was written lists the peers that were kept. -/
theorem load_of_persist {p : PeerOptions} {childId : UInt32} {count : Nat}
    (hlength : known.length < UInt64.size)
    (hpersist : persist me (.ok known) p childId files = .ok (count, files'))
    (hcount : count ≠ 0) :
    load files' (path p.peerstoreFile childId) =
      ((kept me known p.highWater).map PeerRecord.ofPeer).mapM peerOf := by
  change (if (records me known p.highWater).isEmpty then _ else _) = _ at hpersist
  rw [records_eq hlength] at hpersist
  split at hpersist
  case isTrue =>
    cases hpersist
    exact absurd rfl hcount
  case isFalse =>
    split at hpersist
    case h_1 hwrite =>
      cases hpersist
      rw [load, FileTree.read_of_write hwrite]
      change ofBytes _ _ = _
      rw [ofBytes, readRecords_toBytes]
    case h_2 => cases hpersist

/-- A node that returns to known peers starts exactly when the snapshot can be read. -/
theorem start_isOk_iff {n : Node} {m : Machine} {r : Randomness} {settings : SwarmSettings}
    {worker : Worker} (hphase : n.phase = .uninitialized)
    (hjoin : Node.joinNetwork m o r = .ok (settings, worker))
    (hrole : nodeRole [settings.listen] settings.bootstrap ≠ .bootstrap)
    (henabled : o.p2p.peerstoreEnabled = true) (rootCancelled : Bool) :
    (n.start m o r rootCancelled).1 = .ok () ↔
      ∃ peers, load m.files (path o.p2p.peerstoreFile o.bus.childId) = .ok peers := by
  have hjoined : Node.joinRoom m o r = Node.rejoin m o r settings worker := by
    rw [Node.joinRoom, hjoin]
    rfl
  rw [Node.start_of_uninitialized m o r rootCancelled hphase, hjoined, Node.rejoin,
    if_pos ⟨hrole, henabled⟩, redials]
  cases load m.files (path o.p2p.peerstoreFile o.bus.childId) with
  | error e => simp [Node.ended, bind, Except.bind]
  | ok peers => simp [Node.ended, bind, Except.bind, pure, Except.pure]

/-- A snapshot that was written reads back, and lets a node start that returns to known peers,
exactly when all its addresses are legible. Without slashes in free text these are the addresses
whose onion segments have ports and whose garlic addresses have a length that is in use; a slash
before anything but a protocol makes an address illegible. -/
theorem reloads_iff_legible (me : PeerId) (known : List KnownPeer) (o : Options)
    (files files' : FileTree) (count : Nat) (hlength : known.length < UInt64.size)
    (hids : ∀ peer ∈ known, peer.1.WellFormed)
    (hpersist : persist me (.ok known) o.p2p o.bus.childId files = .ok (count, files'))
    (hcount : count ≠ 0) :
    let legible := ∀ peer ∈ kept me known o.p2p.highWater, ∀ address ∈ peer.2, address.Legible
    ((∃ peers, load files' (path o.p2p.peerstoreFile o.bus.childId) = .ok peers) ↔ legible) ∧
    (∀ (n : Node) (m : Machine) r settings worker rootCancelled, m.files = files' →
      n.phase = .uninitialized → Node.joinNetwork m o r = .ok (settings, worker) →
      nodeRole [settings.listen] settings.bootstrap ≠ .bootstrap →
      o.p2p.peerstoreEnabled = true →
      ((n.start m o r rootCancelled).1 = .ok () ↔ legible)) ∧
    (∀ address : Multiaddr, (∀ s ∈ address, s.WellFormed ∧ s.Slashless) →
      (address.Legible ↔ ∀ s ∈ address, s.Representable)) ∧
    (∀ (before after : Multiaddr) protocol value host word more,
      (∀ s ∈ before, s.Representable) → splitAt '/' value.toList = host :: word :: more →
      Multiaddr.bareSegment? word = none → Multiaddr.valueReader word = none →
      ¬ Multiaddr.Legible (before ++ .text protocol value :: after)) := by
  have hload : (∃ peers, load files' (path o.p2p.peerstoreFile o.bus.childId) = .ok peers) ↔
      ∀ peer ∈ kept me known o.p2p.highWater, ∀ address ∈ peer.2, address.Legible := by
    rw [load_of_persist hlength hpersist hcount, mapM_isOk_iff, List.forall_mem_map]
    exact forall₂_congr fun peer hpeer => peerOf_isOk_iff (hids peer (mem_of_mem_kept hpeer))
  refine ⟨hload, ?start, fun _ => Multiaddr.legible_iff_representable, ?slash⟩
  case start =>
    rintro n m r settings worker rootCancelled rfl hphase hjoin hrole henabled
    rw [start_isOk_iff hphase hjoin hrole henabled rootCancelled, hload]
  case slash =>
    intro before after protocol value host word more hbefore hvalue hbare hreader
    rw [Multiaddr.legible_append_iff hbefore]
    exact Multiaddr.not_legible_of_parse
      (Multiaddr.parse_render_text hvalue hbare hreader after)

/-- An address that a peer may tell: a port on a host whose name has a slash. -/
def slashedHost : Multiaddr :=
  [.text .dns4 "evil/host", .port .tcp 1042]

/-- What a node knows after a peer told that address. -/
def slashedKnown : List KnownPeer :=
  (PeerBook.empty.add (samplePeer 2) slashedHost).peers

/-- The settings of a node that returns to known peers. -/
def returningOptions : Options :=
  { p2p := { peerstoreFile := "peers" } }

/-- A node on these files joins the network. -/
def returningMachine (files : FileTree) : Machine :=
  .secluded files "/bin/soroban" fun _ => .error .channelClosed

def returningDraws : Randomness :=
  { seed := List.replicate 32 7, bootstrap := [], snapshot := [] }

theorem returning_joins (files : FileTree) :
    ∃ settings worker,
      Node.joinNetwork (returningMachine files) returningOptions returningDraws =
        .ok (settings, worker) ∧
      nodeRole [settings.listen] settings.bootstrap ≠ .bootstrap := by
  refine ⟨_, _, rfl, ?_⟩
  decide

/-- A peer tells the address, the node writes it, and from then on it does not start. -/
theorem slashedHost_refused :
    (∀ w : Worker, w.book = .empty →
      (w.handleEvent 0 [] (.identified (samplePeer 2) [slashedHost])).1.book.peers =
        slashedKnown) ∧
    ∃ files', persist (samplePeer 1) (.ok slashedKnown) returningOptions.p2p 0 .empty =
        .ok (1, files') ∧
      files'.read (path "peers" 0) = .ok (Utf8.encode
        ("[\x7b\"ID\":\"QmNUVJPjvXxb55spvBuoNKEvGWzoGzzmwLC8MAovVWhMiR\"," ++
          "\"Addrs\":[\"/dns4/evil/host/tcp/1042\"]\x7d]\n")) ∧
      (¬ ∃ peers, load files' (path "peers" 0) = .ok peers) ∧
      (({} : Node).start (returningMachine files') returningOptions returningDraws false).1 ≠
        .ok () := by
  have hwritable : FileTree.empty.Writable (path "peers" 0) := by
    have hpath : path "peers" 0 = "peers.c0.json" := by decide +kernel
    rw [hpath]
    exact ⟨["peers.c0.json"], by decide +kernel, by decide +kernel, by decide +kernel⟩
  have hkept : kept (samplePeer 1) slashedKnown returningOptions.p2p.highWater = slashedKnown := by
    decide
  have htold : ∀ w : Worker, w.book = .empty →
      (w.handleEvent 0 [] (.identified (samplePeer 2) [slashedHost])).1.book.peers =
        slashedKnown := by
    intro w hbook
    rw [slashedKnown, ← hbook]
    rfl
  obtain ⟨files', hwrite⟩ := hwritable.write (toBytes (slashedKnown.map PeerRecord.ofPeer))
  have hpersist : persist (samplePeer 1) (.ok slashedKnown) returningOptions.p2p 0 .empty =
      .ok (1, files') :=
    persist_of_write (by decide) (by rw [hkept]; decide) (by rw [hkept]; exact hwrite)
  have hids : ∀ peer ∈ slashedKnown, peer.1.WellFormed := by
    intro peer hpeer
    rw [List.mem_singleton.1 hpeer]
    exact wellFormed_samplePeer 2
  obtain ⟨hload, hstart, -, hslash⟩ := reloads_iff_legible (samplePeer 1) slashedKnown
    returningOptions .empty files' 1 (by decide) hids hpersist (by decide)
  have hillegible : ¬ ∀ peer ∈ kept (samplePeer 1) slashedKnown returningOptions.p2p.highWater,
      ∀ address ∈ peer.2, address.Legible := by
    rw [hkept]
    intro hall
    exact hslash [] [.port .tcp 1042] .dns4 "evil/host" "evil".toList "host".toList [] nofun
      (by decide) (by decide) (by decide)
      (hall _ List.mem_cons_self slashedHost List.mem_cons_self)
  obtain ⟨settings, worker, hjoin, hrole⟩ := returning_joins files'
  refine ⟨htold, files', hpersist, ?content, mt hload.1 hillegible, ?start⟩
  case content =>
    rw [FileTree.read_of_write hwrite]
    decide +kernel
  case start =>
    exact mt (hstart {} _ _ settings worker false rfl rfl hjoin hrole (by decide)).1 hillegible

end Snapshot

end GossipDirectory
