import GossipDirectory.Peerstore.Persistence
import GossipDirectory.Proofs.Address.MultiaddrText
import GossipDirectory.Proofs.FileTree
import GossipDirectory.Proofs.Peerstore.RecordText

/-!
# Snapshots and their return

A snapshot returns as the peers it kept, in their order and with their addresses, because ids,
addresses, records and files all read back. Where nobody is kept, or the known peers are not told,
no file changes, however many snapshots are due.

## Implementation notes

Addresses may come from anywhere as long as some text writes them; only such addresses read back. A
snapshot that cannot be written is a matter of the directory, not of the peers.
-/

namespace GossipDirectory

namespace Snapshot

/-! ## The peers that are kept -/

/-- The peers that a snapshot keeps: those that are not the node itself and have an address, and of
them one more than the high watermark, or all if that number is too large for the machine. -/
def kept (me : PeerId) (known : List KnownPeer) (highWater : UInt64) : List KnownPeer :=
  let others := known.filter fun peer => peer.1 ≠ me ∧ peer.2 ≠ []
  if highWater.toNat + 1 < UInt64.size then others.take (highWater.toNat + 1) else others

variable {me : PeerId} {known : List KnownPeer} {highWater : UInt64}

theorem worthy_eq (me : PeerId) (known : List KnownPeer) :
    worthy me known = known.filter fun peer => peer.1 ≠ me ∧ peer.2 ≠ [] := by
  apply List.filter_congr
  rintro ⟨peer, addresses⟩ _
  cases addresses with
  | nil => simp
  | cons address addresses => simp

/-- No list is long enough to lose peers to the largest bound. -/
theorem take_worthy (hlength : known.length < UInt64.size) :
    (worthy me known).take (bound highWater) = kept me known highWater := by
  rw [worthy_eq, kept, bound]
  split
  · next h => rw [Nat.min_eq_right (Nat.le_sub_one_of_lt h)]
  · apply List.take_of_length_le
    have := List.length_filter_le (fun peer : KnownPeer => decide (peer.1 ≠ me ∧ peer.2 ≠ [])) known
    omega

theorem mem_of_mem_kept {peer : KnownPeer} (h : peer ∈ kept me known highWater) : peer ∈ known := by
  rw [kept] at h
  split at h
  · exact List.mem_of_mem_filter (List.mem_of_mem_take h)
  · exact List.mem_of_mem_filter h

/-! ## Records -/

theorem records_eq (hlength : known.length < UInt64.size) :
    records me known highWater = (kept me known highWater).map PeerRecord.ofPeer := by
  rw [records, take_worthy hlength]

theorem addressOf_toText {address : Multiaddr} (h : ∀ s ∈ address, s.Representable) :
    addressOf address.toText = .ok address := by
  rw [addressOf, Multiaddr.toText, String.toList_ofList, Multiaddr.parse_render h]

/-- The record of a peer stands for the peer. -/
theorem peerOf_ofPeer {peer : KnownPeer} (hid : peer.1.WellFormed)
    (haddresses : ∀ address ∈ peer.2, ∀ s ∈ address, s.Representable) :
    peerOf (PeerRecord.ofPeer peer) = .ok peer := by
  have hread : (peer.2.map Multiaddr.toText).mapM addressOf = .ok peer.2 :=
    mapM_map_eq_pure fun address h => addressOf_toText (haddresses address h)
  rw [peerOf, PeerRecord.ofPeer, PeerId.text, String.toList_ofList, PeerId.parse?_render hid]
  simp only [hread]
  rfl

/-- The records of peers whose addresses are written by texts stand for these peers. -/
theorem ofBytes_toBytes {peers : List KnownPeer} (hids : ∀ peer ∈ peers, peer.1.WellFormed)
    (haddresses : ∀ peer ∈ peers, ∀ address ∈ peer.2,
      ∃ text, Multiaddr.ofText text = .ok address) (path : String) :
    ofBytes path (toBytes (peers.map PeerRecord.ofPeer)) = .ok peers := by
  rw [ofBytes, readRecords_toBytes]
  -- one record that stands for no peer would fail the whole file
  apply mapM_map_eq_pure
  intro peer hpeer
  apply peerOf_ofPeer (hids peer hpeer)
  intro address haddress
  obtain ⟨text, htext⟩ := haddresses peer hpeer address haddress
  exact Multiaddr.representable_of_parse (mapError_eq_ok.1 htext)

/-! ## Files -/

variable {p : PeerOptions} {childId : UInt32} {files : FileTree}

theorem persist_of_kept_eq_nil (hlength : known.length < UInt64.size)
    (hnobody : kept me known p.highWater = []) :
    persist me (.ok known) p childId files = .ok (0, files) := by
  change (if (records me known p.highWater).isEmpty then _ else _) = _
  rw [records_eq hlength, hnobody]
  rfl

theorem persist_of_write {files' : FileTree} (hlength : known.length < UInt64.size)
    (hsomebody : kept me known p.highWater ≠ [])
    (hwrite : files.write (path p.peerstoreFile childId)
      (toBytes ((kept me known p.highWater).map PeerRecord.ofPeer)) = .ok files') :
    persist me (.ok known) p childId files = .ok ((kept me known p.highWater).length, files') := by
  have hrecords : ¬ ((kept me known p.highWater).map PeerRecord.ofPeer).isEmpty = true := by
    simpa using hsomebody
  change (if (records me known p.highWater).isEmpty then _ else _) = _
  rw [records_eq hlength, if_neg hrecords, hwrite, List.length_map]
  rfl

/-! ## Runs -/

/-- Snapshots that change nothing change nothing together. -/
theorem run_of_unchanged {write : FileTree → Except Failure (Nat × FileTree)}
    (h : ∀ n files', write files = .ok (n, files') → files' = files) (schedule : Persistence)
    (now : Millis) : (schedule.run now write files).2 = files := by
  rw [Persistence.run]
  dsimp only
  induction schedule.due now with
  | zero => rfl
  | succ count ih =>
      rw [Nat.repeat, ih]
      split
      · next n files' hwrite => exact h n files' hwrite
      · rfl

/-- A snapshot returns as the peers it kept and counts them. If it keeps nobody, or the known peers
are not told, no file changes, however many snapshots are due. -/
theorem load_persist (me : PeerId) (known : List KnownPeer) (p : PeerOptions) (childId : UInt32)
    (files : FileTree) (schedule : Persistence) (now : Millis)
    (hlength : known.length < UInt64.size) (hids : ∀ peer ∈ known, peer.1.WellFormed)
    (haddresses : ∀ peer ∈ known, ∀ address ∈ peer.2,
      ∃ text, Multiaddr.ofText text = .ok address) :
    (kept me known p.highWater ≠ [] → files.Writable (path p.peerstoreFile childId) →
      ∃ files', persist me (.ok known) p childId files =
          .ok ((kept me known p.highWater).length, files') ∧
        load files' (path p.peerstoreFile childId) = .ok (kept me known p.highWater)) ∧
    (kept me known p.highWater = [] →
      persist me (.ok known) p childId files = .ok (0, files) ∧
        (schedule.run now (persist me (.ok known) p childId) files).2 = files) ∧
    (∀ failure, persist me (.error failure) p childId files = .error failure ∧
      (schedule.run now (persist me (.error failure) p childId) files).2 = files) := by
  refine ⟨?returns, ?nobody, ?failed⟩
  case returns =>
    intro hsomebody hwritable
    obtain ⟨files', hwrite⟩ := hwritable.write
      (toBytes ((kept me known p.highWater).map PeerRecord.ofPeer))
    refine ⟨files', persist_of_write hlength hsomebody hwrite, ?_⟩
    rw [load, FileTree.read_of_write hwrite]
    apply ofBytes_toBytes
    · exact fun peer hpeer => hids peer (mem_of_mem_kept hpeer)
    · exact fun peer hpeer => haddresses peer (mem_of_mem_kept hpeer)
  case nobody =>
    intro hnobody
    constructor
    · exact persist_of_kept_eq_nil hlength hnobody
    · apply run_of_unchanged
      intro n files' hwrite
      rw [persist_of_kept_eq_nil hlength hnobody] at hwrite
      cases hwrite
      rfl
  case failed =>
    intro failure
    constructor
    · rfl
    · apply run_of_unchanged
      intro n files' hwrite
      cases hwrite

/-- A peer for every byte. -/
def samplePeer (b : UInt8) : PeerId :=
  { code := PeerId.sha256Code, digest := List.replicate 32 b }

/-- Known peers of the first one, of which the second has no address. -/
def sampleKnown : List KnownPeer :=
  [(samplePeer 1, [[.ip4 Ipv4.loopback]]), (samplePeer 2, []),
    (samplePeer 3, [[], [.text .dns "a\"b", .port .tcp 80]]),
    (samplePeer 4, [[.ip4 Ipv4.loopback, .port .udp 7, .plain .quicV1, .plain .webtransport,
      .certhash { code := 18, digest := List.replicate 32 9 }]]),
    (samplePeer 5, [[.ip4 Ipv4.loopback]])]

/-- Settings that keep two peers. -/
def sampleOptions : PeerOptions :=
  { highWater := 1, peerstoreFile := "peers" }

/-- A directory with an older file of the shard. -/
def sampleFiles : FileTree :=
  FileTree.empty.place "peers.c2.json" [1, 2, 3]

theorem writable_sampleFiles : sampleFiles.Writable (path "peers" 2) := by
  have hpath : path "peers" 2 = "peers.c2.json" := by decide +kernel
  rw [hpath]
  exact ⟨["peers.c2.json"], by decide +kernel, by decide +kernel, by decide +kernel⟩

theorem wellFormed_samplePeer (b : UInt8) : (samplePeer b).WellFormed := by
  constructor
  · change (List.replicate 32 b).length ≤ _
    rw [List.length_replicate]
    decide
  · exact .inl rfl

/-- Two of the peers return; of the first two nobody is kept. -/
theorem twoPeers_return :
    (∃ files', persist (samplePeer 1) (.ok sampleKnown) sampleOptions 2 sampleFiles =
        .ok (2, files') ∧
      load files' (path "peers" 2) = .ok ((sampleKnown.drop 2).take 2)) ∧
    persist (samplePeer 1) (.ok (sampleKnown.take 2)) sampleOptions 2 sampleFiles =
      .ok (0, sampleFiles) ∧
    ((Persistence.start 0).run 300000
      (persist (samplePeer 1) (.error .channelClosed) sampleOptions 2) sampleFiles).2 =
      sampleFiles := by
  have hids : ∀ peer ∈ sampleKnown, peer.1.WellFormed := by
    intro peer hpeer
    simp only [sampleKnown, List.mem_cons, List.not_mem_nil, or_false] at hpeer
    rcases hpeer with rfl | rfl | rfl | rfl | rfl <;> exact wellFormed_samplePeer _
  have haddresses : ∀ peer ∈ sampleKnown, ∀ address ∈ peer.2,
      ∃ text, Multiaddr.ofText text = .ok address := by
    have all : ∀ peer ∈ sampleKnown, ∀ address ∈ peer.2,
        Multiaddr.ofText address.toText = .ok address := by decide +kernel
    exact fun peer hpeer address haddress => ⟨_, all peer hpeer address haddress⟩
  have hkept : kept (samplePeer 1) sampleKnown sampleOptions.highWater =
      (sampleKnown.drop 2).take 2 := by decide
  have hnobody : kept (samplePeer 1) (sampleKnown.take 2) sampleOptions.highWater = [] := by
    decide
  have hfirst : ∀ peer ∈ sampleKnown.take 2, peer ∈ sampleKnown := fun _ => List.mem_of_mem_take
  have hall := load_persist (samplePeer 1) sampleKnown sampleOptions 2 sampleFiles
    (Persistence.start 0) 300000 (by decide) hids haddresses
  have htwo := load_persist (samplePeer 1) (sampleKnown.take 2) sampleOptions 2 sampleFiles
    (Persistence.start 0) 300000 (by decide) (fun peer h => hids peer (hfirst peer h))
    (fun peer h => haddresses peer (hfirst peer h))
  refine ⟨?_, (htwo.2.1 hnobody).1, (hall.2.2 .channelClosed).2⟩
  rw [hkept] at hall
  exact hall.1 (by decide) writable_sampleFiles

end Snapshot

end GossipDirectory
