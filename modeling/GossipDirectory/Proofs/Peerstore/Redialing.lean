import GossipDirectory.Mesh.Node
import GossipDirectory.Proofs.Collection.Drawing
import GossipDirectory.Proofs.Mesh.StartupDials
import GossipDirectory.Proofs.Peerstore.RoundTrip

/-!
# Dialing known peers again

A node that returns dials peers of its snapshot: all of them in their order if they are no more than
half the low watermark, else one more than that half, and any of them can be drawn. It leaves itself
out after the draw. The answer is the number of dials, whatever becomes of them. Nobody is dialed if
there is no snapshot, or one in which a record names no peer.

## Implementation notes

What a dial does is a parameter, with a state that it may change, so what is said holds for any
outcomes. In the system of tasks the dials go on at the same time and their steps interleave with
everything else; there too each of them is begun once before the start goes on.
-/

namespace GossipDirectory

/-- A record holds the text of a peer's id and of its addresses. -/
structure PeerRecord.Names (r : PeerRecord) (peer : KnownPeer) : Prop where
  id : PeerId.parse? r.id.toList = some peer.1
  addresses : List.Forall₂ (fun text a => Multiaddr.ofText text = .ok a) r.addresses peer.2

namespace Snapshot

/-- A content holds records, and each of them names a peer. -/
def Lists (content : Bytes) (known : List KnownPeer) : Prop :=
  ∃ rs, Json.document readRecords content = .ok rs ∧ List.Forall₂ PeerRecord.Names rs known

variable {content : Bytes} {known : List KnownPeer} {file : String} {cause : Failure}

/-! ## The peers of a snapshot -/

theorem addressOf_eq_ok_iff {text : String} {address : Multiaddr} :
    addressOf text = .ok address ↔ Multiaddr.ofText text = .ok address := by
  rw [addressOf, Multiaddr.ofText, mapError_eq_ok]
  cases Multiaddr.parse text.toList with
  | error e => simp
  | ok read => rw [Except.ok.injEq, Except.ok.injEq]

theorem peerOf_eq_ok_iff {r : PeerRecord} {peer : KnownPeer} :
    peerOf r = .ok peer ↔ r.Names peer := by
  have haddresses : ∀ {addresses}, r.addresses.mapM addressOf = .ok addresses ↔
      List.Forall₂ (fun text a => Multiaddr.ofText text = .ok a) r.addresses addresses := by
    intro addresses
    simp only [mapM_eq_ok_iff, addressOf_eq_ok_iff]
  rw [peerOf]
  cases hid : PeerId.parse? r.id.toList with
  | none =>
      simp only [reduceCtorEq, false_iff]
      intro h
      cases hid.symm.trans h.id
  | some id =>
      rw [map_eq_ok]
      constructor
      · rintro ⟨addresses, h, rfl⟩
        exact ⟨hid, haddresses.1 h⟩
      · intro h
        cases hid.symm.trans h.id
        exact ⟨peer.2, haddresses.2 h.addresses, rfl⟩

theorem ofBytes_eq_ok_iff : ofBytes file content = .ok known ↔ Lists content known := by
  rw [ofBytes, Lists]
  cases Json.document readRecords content with
  | error e => simp
  | ok rs => simp [mapM_eq_ok_iff, peerOf_eq_ok_iff]

/-- Whatever is wrong with a record is a defect of the snapshot. -/
theorem peerOf_fails {r : PeerRecord} (h : peerOf r = .error cause) :
    ∃ defect, cause = .peerstore defect := by
  rw [peerOf] at h
  split at h
  case h_1 => exact ⟨_, (Except.error.inj h).symm⟩
  case h_2 id hid =>
    cases haddresses : r.addresses.mapM addressOf with
    | ok addresses =>
        rw [haddresses] at h
        cases h
    | error e =>
        rw [haddresses] at h
        cases h
        obtain ⟨-, text, -, -, -, htext⟩ := mapM_eq_error_iff.1 haddresses
        rw [addressOf] at htext
        split at htext
        · cases htext
        · exact ⟨_, (Except.error.inj htext).symm⟩

/-- Whatever is wrong with a content is a defect of the snapshot. -/
theorem ofBytes_fails (h : ofBytes file content = .error cause) :
    ∃ defect, cause = .peerstore defect := by
  rw [ofBytes] at h
  split at h
  · exact ⟨_, (Except.error.inj h).symm⟩
  · obtain ⟨-, r, -, -, -, hr⟩ := mapM_eq_error_iff.1 h
    exact peerOf_fails hr

/-! ## The peers that are drawn -/

variable {α : Type} {draws : List Nat} {lowWater : UInt64}

theorem select_of_le {known : List α} (h : known.length ≤ lowWater.toNat / 2) :
    select draws lowWater known = known :=
  if_neg (Nat.not_lt.2 h)

theorem select_of_lt {known : List α} (h : lowWater.toNat / 2 < known.length) :
    select draws lowWater known = (shuffle draws known).take (lowWater.toNat / 2 + 1) :=
  if_pos h

theorem drawnFrom_select (draws : List Nat) (lowWater : UInt64) (known : List α) :
    DrawnFrom (min (lowWater.toNat / 2 + 1) known.length) known (select draws lowWater known) := by
  refine drawnFrom_ite id (fun h => ?_) draws
  omega

/-- Any choice of that many peers in any order can be drawn. -/
theorem exists_select_eq_iff {known selected : List α} (h : lowWater.toNat / 2 < known.length) :
    (∃ draws, select draws lowWater known = selected) ↔
      DrawnFrom (lowWater.toNat / 2 + 1) known selected := by
  simp only [select_of_lt h, drawnFrom_iff (Nat.succ_le_of_lt h)]

/-! ## The dials -/

variable {σ : Type} (connect : σ → KnownPeer → Except Failure Unit × σ) (s : σ)

theorem length_dialAll (peers : List KnownPeer) :
    (dialAll connect s peers).1.length = peers.length := by
  induction peers generalizing s with
  | nil => rfl
  | cons peer peers ih => rw [dialAll, List.length_cons, List.length_cons, ih]

theorem dialAll_snd (peers : List KnownPeer) :
    (dialAll connect s peers).2 = peers.foldl (fun s peer => (connect s peer).2) s := by
  induction peers generalizing s with
  | nil => rfl
  | cons peer peers ih => rw [dialAll, List.foldl_cons, ih]

variable {me : PeerId} {p : PeerOptions} {childId : UInt32} {files : FileTree}

theorem redials_of_load_error (h : load files (path p.peerstoreFile childId) = .error cause) :
    redials me p childId files draws = .error cause := by
  rw [redials, h]
  rfl

theorem redials_of_load_ok (h : load files (path p.peerstoreFile childId) = .ok known) :
    redials me p childId files draws =
      .ok ((select draws p.lowWater known).filter (·.1 ≠ me)) := by
  rw [redials, h]
  rfl

theorem reconnect_of_load_error
    (h : load files (path p.peerstoreFile childId) = .error cause) :
    reconnect connect s me p childId files draws = (.error cause, s) := by
  rw [reconnect, redials_of_load_error h]

theorem reconnect_of_load_ok (h : load files (path p.peerstoreFile childId) = .ok known) :
    reconnect connect s me p childId files draws =
      (.ok ((select draws p.lowWater known).filter (·.1 ≠ me)).length,
        ((select draws p.lowWater known).filter (·.1 ≠ me)).foldl
          (fun s peer => (connect s peer).2) s) := by
  rw [reconnect, redials_of_load_ok h]
  simp only [length_dialAll, dialAll_snd]

end Snapshot

/-! ## A node that starts -/

namespace Node

/-- Dials a peer, with the next of the connections that are named in order. -/
def dialNext (m : Machine) (s : Worker × Nat) (peer : KnownPeer) :
    Except Failure Unit × Worker × Nat :=
  let (outcome, w) := s.1.connect m 0 (maxBootstrapPeers + s.2) peer.1 peer.2
  (outcome, w, s.2 + 1)

theorem foldl_dialNext (m : Machine) (w : Worker) (n : Nat) (dials : List KnownPeer) :
    (dials.foldl (fun s peer => (dialNext m s peer).2) (w, n)).1 =
      (dials.zipIdx n).foldl (redial m) w := by
  induction dials generalizing w n with
  | nil => rfl
  | cons peer dials ih =>
      rw [List.zipIdx_cons, List.foldl_cons, List.foldl_cons]
      exact ih _ _

/-- A node that keeps snapshots and is no bootstrap node returns to its peers when it starts. -/
theorem rejoin_eq_reconnect {m : Machine} {o : Options} {r : Randomness} {settings : SwarmSettings}
    {w : Worker} (hrole : nodeRole [settings.listen] settings.bootstrap ≠ .bootstrap)
    (henabled : o.p2p.peerstoreEnabled = true) :
    rejoin m o r settings w =
      let (answer, w', _) := Snapshot.reconnect (dialNext m) (w, 0) w.me o.p2p o.bus.childId m.files
        r.snapshot
      answer.map fun _ => w' := by
  rw [rejoin, if_pos ⟨hrole, henabled⟩, Snapshot.reconnect]
  cases Snapshot.redials w.me o.p2p o.bus.childId m.files r.snapshot with
  | error cause => rfl
  | ok dials =>
      have hdials := foldl_dialNext m w 0 dials
      rw [← Snapshot.dialAll_snd] at hdials
      exact congrArg Except.ok hdials.symm

end Node

namespace Snapshot

/-- A node without a snapshot dials nobody, and so does one whose snapshot cannot be read or holds a
record that names no peer. Otherwise all peers of the snapshot are selected in their order, or one
more than half the low watermark if they are more than that half, and any choice can come up. The
node dials those other than itself, each once, and their number is the answer, whatever becomes of
the dials. That each is begun once also holds of dials that go on at the same time. -/
theorem reconnect_dials (me : PeerId) (p : PeerOptions) (childId : UInt32) (files : FileTree)
    (draws : List Nat) {σ : Type} (connect : σ → KnownPeer → Except Failure Unit × σ) (s : σ) :
    (files.read (path p.peerstoreFile childId) = .error .notFound →
      reconnect connect s me p childId files draws = (.ok 0, s)) ∧
    (∀ cause, cause ≠ .notFound → files.read (path p.peerstoreFile childId) = .error cause →
      reconnect connect s me p childId files draws = (.error (.io cause), s)) ∧
    ∀ content, files.read (path p.peerstoreFile childId) = .ok content →
      ((¬∃ known, Lists content known) →
        ∃ defect, reconnect connect s me p childId files draws =
          (.error (.peerstore defect), s)) ∧
      ∀ known, Lists content known →
        DrawnFrom (min (p.lowWater.toNat / 2 + 1) known.length) known
          (select draws p.lowWater known) ∧
        (known.length ≤ p.lowWater.toNat / 2 → select draws p.lowWater known = known) ∧
        (p.lowWater.toNat / 2 < known.length → ∀ choice,
          DrawnFrom (p.lowWater.toNat / 2 + 1) known choice →
            ∃ draws, select draws p.lowWater known = choice) ∧
        ∃ dials, dials = (select draws p.lowWater known).filter (·.1 ≠ me) ∧
          reconnect connect s me p childId files draws =
            (.ok dials.length, dials.foldl (fun s peer => (connect s peer).2) s) ∧
          ∀ (w : Worker) (allowed : Startup.State → Startup.Action → Prop)
            (actions : List Startup.Action) (t : Startup.State),
            Startup.Run allowed (.launch w dials) actions t →
              t.dialed = dials ∧ (∀ i, actions.count (.send i) ≤ 1) ∧
              (t.returned = true → ∀ i,
                actions.count (.send i) = if i < dials.length then 1 else 0) := by
  refine ⟨?missing, ?unreadable, ?present⟩
  case missing =>
    intro hread
    have hload : load files (path p.peerstoreFile childId) = .ok [] := by rw [load, hread]
    rw [reconnect_of_load_ok connect s hload, select_of_le (Nat.zero_le _)]
    rfl
  case unreadable =>
    intro cause hcause hread
    apply reconnect_of_load_error
    rw [load, hread]
    cases cause with
    | notFound => exact absurd rfl hcause
    | _ => rfl
  case present =>
    intro content hread
    have hload : load files (path p.peerstoreFile childId) =
        ofBytes (path p.peerstoreFile childId) content := by rw [load, hread]
    constructor
    · intro hnone
      cases hbytes : ofBytes (path p.peerstoreFile childId) content with
      | ok known => exact absurd ⟨known, ofBytes_eq_ok_iff.1 hbytes⟩ hnone
      | error cause =>
          obtain ⟨defect, rfl⟩ := ofBytes_fails hbytes
          exact ⟨defect, reconnect_of_load_error connect s (hload.trans hbytes)⟩
    · intro known hlists
      have hok := hload.trans (ofBytes_eq_ok_iff.2 hlists)
      refine ⟨drawnFrom_select draws p.lowWater known, select_of_le, fun h choice hchoice => ?_,
        _, rfl, reconnect_of_load_ok connect s hok, fun w allowed actions t hrun => hrun.begun_once⟩
      exact (exists_select_eq_iff h).2 hchoice

/-- Every dial fails; the peers that were dialed are noted. -/
def refuseAll (log : List KnownPeer) (peer : KnownPeer) : Except Failure Unit × List KnownPeer :=
  (.error .channelClosed, log ++ [peer])

/-- Settings under which two peers of three are dialed. -/
def sparseOptions : PeerOptions :=
  { lowWater := 2, peerstoreFile := "peers" }

/-- Of three peers the third and the first come up, and both dials fail. A node that is the first
one dials the third one only. -/
theorem threePeers_dialed :
    (∃ files, files.read (path "peers" 2) =
        .ok (toBytes ((sampleKnown.take 3).map PeerRecord.ofPeer)) ∧
      reconnect refuseAll [] (samplePeer 9) sparseOptions 2 files [2] =
        (.ok 2, [(samplePeer 3, [[], [.text .dns "a\"b", .port .tcp 80]]),
          (samplePeer 1, [[.ip4 Ipv4.loopback]])]) ∧
      reconnect refuseAll [] (samplePeer 1) sparseOptions 2 files [2] =
        (.ok 1, [(samplePeer 3, [[], [.text .dns "a\"b", .port .tcp 80]])])) ∧
    (∃ defect, reconnect refuseAll [] (samplePeer 9) sparseOptions 2 sampleFiles [2] =
      (.error (.peerstore defect), [])) ∧
    reconnect refuseAll [] (samplePeer 9) sparseOptions 2 FileTree.empty [2] = (.ok 0, []) := by
  refine ⟨?snapshot, ?malformed, ?missing⟩
  case snapshot =>
    obtain ⟨files, hwrite⟩ := writable_sampleFiles.write
      (toBytes ((sampleKnown.take 3).map PeerRecord.ofPeer))
    have hread := FileTree.read_of_write hwrite
    have hids : ∀ peer ∈ sampleKnown.take 3, peer.1.WellFormed := by
      intro peer hpeer
      simp only [sampleKnown, List.take, List.mem_cons, List.not_mem_nil, or_false] at hpeer
      rcases hpeer with rfl | rfl | rfl <;> exact wellFormed_samplePeer _
    have haddresses : ∀ peer ∈ sampleKnown.take 3, ∀ address ∈ peer.2,
        Multiaddr.ofText address.toText = .ok address := by decide +kernel
    have hlists := ofBytes_eq_ok_iff.1 (ofBytes_toBytes hids
      (fun peer hpeer address haddress => ⟨_, haddresses peer hpeer address haddress⟩) "")
    refine ⟨files, hread, ?_, ?_⟩
    · obtain ⟨-, -, hpresent⟩ :=
        reconnect_dials (samplePeer 9) sparseOptions 2 files [2] refuseAll []
      obtain ⟨-, -, -, dials, rfl, hdials, -⟩ := (hpresent _ hread).2 _ hlists
      exact hdials.trans (by decide)
    · obtain ⟨-, -, hpresent⟩ :=
        reconnect_dials (samplePeer 1) sparseOptions 2 files [2] refuseAll []
      obtain ⟨-, -, -, dials, rfl, hdials, -⟩ := (hpresent _ hread).2 _ hlists
      exact hdials.trans (by decide)
  case malformed =>
    obtain ⟨-, -, hpresent⟩ :=
      reconnect_dials (samplePeer 9) sparseOptions 2 sampleFiles [2] refuseAll []
    refine (hpresent [1, 2, 3] (by decide +kernel)).1 ?_
    rintro ⟨known, rs, hread, -⟩
    cases hread
  case missing =>
    obtain ⟨hmissing, -⟩ :=
      reconnect_dials (samplePeer 9) sparseOptions 2 FileTree.empty [2] refuseAll []
    exact hmissing (by decide +kernel)

end Snapshot

end GossipDirectory
