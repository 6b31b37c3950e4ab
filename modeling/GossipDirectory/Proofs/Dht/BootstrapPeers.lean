import GossipDirectory.Dht.Bootstrap
import GossipDirectory.Proofs.Collection.Drawing
import GossipDirectory.Proofs.Collection.Outcome

/-!
# Entering the lookup network

A node uses two of its bootstrap addresses, or all of them if there are no more. It enters the
network if each of these has the name of a peer behind a transport address, and then with exactly
these peers. The first used address of another form is the one that the failure names, and no peer
is used then. Any two addresses can be drawn, so a single address of another form keeps the node out
for some draws.

## Implementation notes

A transport address is any address that is not empty. It may hold names of peers itself, as the
address behind a relay does; the peer is the one named last.
-/

namespace GossipDirectory

namespace Multiaddr

/-- A transport address with the name of its peer behind it. -/
def named (peer : PeerId × Multiaddr) : Multiaddr :=
  peer.2 ++ [.p2p peer.1]

/-- An address consists of a transport address and the name of its peer. -/
def NamesPeer (address : Multiaddr) : Prop :=
  ∃ peer : PeerId × Multiaddr, peer.2 ≠ [] ∧ named peer = address

theorem splitPeer?_eq_some_iff {address : Multiaddr} {peer : PeerId × Multiaddr} :
    address.splitPeer? = some peer ↔ peer.2 ≠ [] ∧ named peer = address := by
  constructor
  · intro h
    unfold splitPeer? at h
    split at h
    case h_1 id hlast =>
      obtain ⟨transport, rfl⟩ := List.getLast?_eq_some_iff.1 hlast
      rw [List.dropLast_concat, Option.ite_none_left_eq_some, Option.some.injEq] at h
      obtain ⟨hne, rfl⟩ := h
      exact ⟨fun heq => hne (List.isEmpty_iff.2 heq), rfl⟩
    case h_2 => cases h
  · rintro ⟨hne, rfl⟩
    rw [splitPeer?, named, List.getLast?_concat, List.dropLast_concat]
    exact if_neg fun hempty => hne (List.isEmpty_iff.1 hempty)

end Multiaddr

open Multiaddr

variable {address : Multiaddr} {peer : PeerId × Multiaddr} {cause : Failure}

theorem peerOfAddress_eq_ok_iff :
    peerOfAddress address = .ok peer ↔ peer.2 ≠ [] ∧ named peer = address := by
  rw [← splitPeer?_eq_some_iff, peerOfAddress]
  cases address.splitPeer? with
  | none => exact iff_of_false nofun nofun
  | some split => rw [Except.ok.injEq, Option.some.injEq]

theorem exists_peerOfAddress_iff :
    (∃ peer, peerOfAddress address = .ok peer) ↔ NamesPeer address :=
  exists_congr fun _ => peerOfAddress_eq_ok_iff

theorem peerOfAddress_eq_error_iff :
    peerOfAddress address = .error cause ↔
      ¬NamesPeer address ∧ cause = .invalidAddress (.noPeer address.toText) := by
  rw [← exists_peerOfAddress_iff, peerOfAddress]
  cases address.splitPeer? with
  | none => simp [eq_comm]
  | some split => simp

/-- All addresses name their peers, and these with their transport addresses give them again. -/
theorem mapM_peerOfAddress_eq_ok_iff {entries : List Multiaddr}
    {peers : List (PeerId × Multiaddr)} :
    entries.mapM peerOfAddress = .ok peers ↔
      (∀ peer ∈ peers, peer.2 ≠ []) ∧ peers.map named = entries := by
  simp only [mapM_eq_ok_iff, peerOfAddress_eq_ok_iff]
  induction peers generalizing entries with
  | nil => simp [eq_comm]
  | cons peer peers ih =>
      simp only [List.forall₂_cons_right_iff, ih, List.forall_mem_cons, List.map_cons]
      constructor
      · rintro ⟨entry, entries, ⟨hne, rfl⟩, ⟨hall, rfl⟩, rfl⟩
        exact ⟨⟨hne, hall⟩, rfl⟩
      · rintro ⟨⟨hne, hall⟩, rfl⟩
        exact ⟨_, _, ⟨hne, rfl⟩, ⟨hall, rfl⟩, rfl⟩

/-! ## The addresses that are used -/

variable {α : Type} {draws : List Nat} {addresses : List α}

theorem selectBootstrap_of_le (h : addresses.length ≤ maxBootstrapPeers) :
    selectBootstrap draws addresses = addresses :=
  if_neg (Nat.not_lt.2 h)

theorem selectBootstrap_of_lt (h : maxBootstrapPeers < addresses.length) :
    selectBootstrap draws addresses = (shuffle draws addresses).take maxBootstrapPeers :=
  if_pos h

theorem drawnFrom_selectBootstrap (draws : List Nat) (addresses : List α) :
    DrawnFrom (min maxBootstrapPeers addresses.length) addresses
      (selectBootstrap draws addresses) :=
  drawnFrom_ite Nat.le_of_lt Nat.le_of_not_lt draws

/-- Of more than two addresses any two can be used, in either order. -/
theorem exists_selectBootstrap_eq_iff (h : maxBootstrapPeers < addresses.length)
    {selected : List α} :
    (∃ draws, selectBootstrap draws addresses = selected) ↔
      DrawnFrom maxBootstrapPeers addresses selected := by
  simp only [selectBootstrap_of_lt h, drawnFrom_iff h.le]

theorem exists_mem_selectBootstrap_iff {a : α} :
    (∃ draws, a ∈ selectBootstrap draws addresses) ↔ a ∈ addresses := by
  constructor
  · rintro ⟨draws, hmem⟩
    exact (drawnFrom_selectBootstrap draws addresses).subset hmem
  · intro hmem
    rcases Nat.lt_or_ge maxBootstrapPeers addresses.length with h | h
    · obtain ⟨selected, hdrawn, ha⟩ := exists_drawnFrom_mem hmem (by decide) h.le
      obtain ⟨draws, rfl⟩ := (exists_selectBootstrap_eq_iff h).2 hdrawn
      exact ⟨draws, ha⟩
    · exact ⟨[], by rwa [selectBootstrap_of_le h]⟩

/-! ## The network that is entered -/

namespace Dht

variable {localPeer : PeerId} {mode : DhtMode} {bootstrap : List Multiaddr} {dht : Dht}

theorem enter_eq_ok_iff :
    enter localPeer mode bootstrap draws = .ok dht ↔
      dht.localPeer = localPeer ∧ dht.mode = mode ∧ (∀ peer ∈ dht.peers, peer.2 ≠ []) ∧
        dht.peers.map named = selectBootstrap draws bootstrap := by
  rw [enter, bind_eq_ok]
  simp only [mapM_peerOfAddress_eq_ok_iff]
  constructor
  · rintro ⟨peers, hpeers, h⟩
    cases h
    exact ⟨rfl, rfl, hpeers⟩
  · rintro ⟨rfl, rfl, hpeers⟩
    exact ⟨dht.peers, hpeers, rfl⟩

theorem exists_enter_iff :
    (∃ dht, enter localPeer mode bootstrap draws = .ok dht) ↔
      ∀ entry ∈ selectBootstrap draws bootstrap, NamesPeer entry := by
  simp only [← exists_peerOfAddress_iff, ← mapM_isOk_iff, enter, bind_eq_ok]
  constructor
  · rintro ⟨-, peers, hpeers, -⟩
    exact ⟨peers, hpeers⟩
  · rintro ⟨peers, hpeers⟩
    exact ⟨_, peers, hpeers, rfl⟩

/-- The network is not entered because of the first used address without the name of a peer. -/
theorem enter_eq_error_iff :
    enter localPeer mode bootstrap draws = .error cause ↔
      ∃ before entry after, selectBootstrap draws bootstrap = before ++ entry :: after ∧
        (∀ other ∈ before, NamesPeer other) ∧ ¬NamesPeer entry ∧
        cause = .invalidAddress (.noPeer entry.toText) := by
  have hpeers : enter localPeer mode bootstrap draws = .error cause ↔
      (selectBootstrap draws bootstrap).mapM peerOfAddress = .error cause := by
    rw [enter]
    cases (selectBootstrap draws bootstrap).mapM peerOfAddress with
    | error e => simp [bind, Except.bind]
    | ok peers => exact iff_of_false nofun nofun
  simp only [hpeers, mapM_eq_error_iff, exists_peerOfAddress_iff, peerOfAddress_eq_error_iff]

/-- The network is entered with two of the bootstrap addresses, or with all if there are no more, if
each of them names its peer, and then with exactly these peers. Otherwise the first one that does
not is refused. Any two addresses can be drawn, so the network is entered for all draws if and only
if every address names its peer. -/
theorem enter_bootstrap (localPeer : PeerId) (mode : DhtMode) (bootstrap : List Multiaddr) :
    (∀ draws,
      DrawnFrom (min 2 bootstrap.length) bootstrap (selectBootstrap draws bootstrap) ∧
      (bootstrap.length ≤ 2 → selectBootstrap draws bootstrap = bootstrap) ∧
      ((∃ dht, enter localPeer mode bootstrap draws = .ok dht) ↔
        ∀ entry ∈ selectBootstrap draws bootstrap, NamesPeer entry) ∧
      (∀ dht, enter localPeer mode bootstrap draws = .ok dht ↔
        dht.localPeer = localPeer ∧ dht.mode = mode ∧ (∀ peer ∈ dht.peers, peer.2 ≠ []) ∧
          dht.peers.map named = selectBootstrap draws bootstrap) ∧
      ∀ cause, enter localPeer mode bootstrap draws = .error cause ↔
        ∃ before entry after, selectBootstrap draws bootstrap = before ++ entry :: after ∧
          (∀ other ∈ before, NamesPeer other) ∧ ¬NamesPeer entry ∧
          cause = .invalidAddress (.noPeer entry.toText)) ∧
    (2 < bootstrap.length → ∀ pair, DrawnFrom 2 bootstrap pair →
      ∃ draws, selectBootstrap draws bootstrap = pair) ∧
    ((∀ draws, ∃ dht, enter localPeer mode bootstrap draws = .ok dht) ↔
      ∀ entry, (∃ draws, entry ∈ selectBootstrap draws bootstrap) → NamesPeer entry) ∧
    ∀ entry, (∃ draws, entry ∈ selectBootstrap draws bootstrap) ↔ entry ∈ bootstrap := by
  refine ⟨fun draws => ⟨?_, ?_, ?_, ?_, ?_⟩, ?_, ?_, ?_⟩
  · exact drawnFrom_selectBootstrap draws bootstrap
  · exact fun h => selectBootstrap_of_le h
  · exact exists_enter_iff
  · exact fun dht => enter_eq_ok_iff
  · exact fun cause => enter_eq_error_iff
  · exact fun h pair hpair => (exists_selectBootstrap_eq_iff h).2 hpair
  · simp only [exists_enter_iff, forall_exists_index]
    exact forall_comm
  · exact fun entry => exists_mem_selectBootstrap_iff

/-- A peer named by a number. -/
def numberedPeer (code : Nat) : PeerId :=
  { code, digest := [] }

/-- An address of a peer, an address of a peer behind a relay, and a peer without an address. -/
def mixedBootstrap : List Multiaddr :=
  [[.ip4 .loopback, .p2p (numberedPeer 0)],
    [.ip4 .loopback, .p2p (numberedPeer 1), .plain .p2pCircuit, .p2p (numberedPeer 2)],
    [.p2p (numberedPeer 3)]]

/-- The first two addresses can be drawn in either order, and the relay is part of an address. With
the third one the network cannot be entered. -/
theorem mixedBootstrap_entered :
    (∃ dht, enter (numberedPeer 4) .auto mixedBootstrap [] = .ok dht ∧
      dht.peers.map (·.1) = [numberedPeer 0, numberedPeer 2]) ∧
    (∃ draws dht, enter (numberedPeer 4) .auto mixedBootstrap draws = .ok dht ∧
      dht.peers.map (·.1) = [numberedPeer 2, numberedPeer 0]) ∧
    ¬∀ draws, ∃ dht, enter (numberedPeer 4) .auto mixedBootstrap draws = .ok dht := by
  obtain ⟨hdraws, hpairs, hevery, hdrawn⟩ :=
    enter_bootstrap (numberedPeer 4) .auto mixedBootstrap
  let direct : PeerId × Multiaddr := (numberedPeer 0, [.ip4 .loopback])
  let relayed : PeerId × Multiaddr :=
    (numberedPeer 2, [.ip4 .loopback, .p2p (numberedPeer 1), .plain .p2pCircuit])
  refine ⟨?inOrder, ?swapped, ?lone⟩
  case inOrder =>
    obtain ⟨-, -, -, hok, -⟩ := hdraws []
    refine ⟨⟨numberedPeer 4, .auto, [direct, relayed]⟩, (hok _).2 ⟨rfl, rfl, ?_, rfl⟩, rfl⟩
    decide
  case swapped =>
    obtain ⟨draws, hselected⟩ := hpairs (by decide) [named relayed, named direct]
      ⟨[⟨1, by decide⟩, ⟨0, by decide⟩], by decide, rfl, rfl⟩
    obtain ⟨-, -, -, hok, -⟩ := hdraws draws
    refine ⟨draws, ⟨numberedPeer 4, .auto, [relayed, direct]⟩, (hok _).2 ⟨rfl, rfl, ?_, ?_⟩, rfl⟩
    · decide
    · exact hselected.symm
  case lone =>
    intro h
    obtain ⟨⟨peer, transport⟩, hne, heq⟩ :=
      hevery.1 h [.p2p (numberedPeer 3)] ((hdrawn _).2 (by decide))
    rcases List.append_eq_singleton_iff.1 heq with ⟨hnil, -⟩ | ⟨-, hnil⟩
    · exact hne hnil
    · cases hnil

end Dht

end GossipDirectory
