import GossipDirectory.Swarm.ConnectionManager
import Mathlib.Data.List.Dedup
import Mathlib.Data.List.DropRight

/-!
# Histories of connections

A history is the list of calls that a connection manager was given. Who is connected after it, and
since when, is said here by the calls alone: a peer is connected since its first `connected` call
after its last `disconnected` call. The entries of the manager are exactly these peers with these
times, so their number is the number of connected peers.
-/

namespace GossipDirectory

namespace ConnectionManager

/-- A call that changes the connected peers. -/
inductive Call
  | connected (peer : PeerId) (time : Millis)
  | disconnected (peer : PeerId)
  deriving DecidableEq, Repr

namespace Call

/-- The peer that a call is about. -/
def peer : Call → PeerId
  | .connected peer _ => peer
  | .disconnected peer => peer

/-- The time at which a call reports the peer as connected. -/
def connects? (peer : PeerId) : Call → Option Millis
  | .connected p time => if p = peer then some time else none
  | .disconnected _ => none

/-- The manager after a call. -/
def effect (m : ConnectionManager) : Call → ConnectionManager
  | .connected peer time => m.connect peer time
  | .disconnected peer => m.disconnect peer

end Call

/-- The manager after a history. -/
def after (m : ConnectionManager) (history : List Call) : ConnectionManager :=
  history.foldl Call.effect m

/-- The calls after the last one that disconnects the peer. -/
def current (peer : PeerId) (history : List Call) : List Call :=
  history.rtakeWhile (· ≠ .disconnected peer)

/-- Since when the peer is connected. -/
def since? (peer : PeerId) (history : List Call) : Option Millis :=
  (current peer history).findSome? (Call.connects? peer)

/-- The peers that a history leaves connected. -/
def connectedPeers (history : List Call) : List PeerId :=
  (history.map Call.peer).dedup.filter fun peer => (since? peer history).isSome

variable {m : ConnectionManager} {history : List Call} {peer : PeerId} {c : Call}

/-! ## One more call -/

theorem after_snoc (m : ConnectionManager) (history : List Call) (c : Call) :
    m.after (history ++ [c]) = c.effect (m.after history) := by
  rw [after, List.foldl_append]
  rfl

theorem since?_snoc_disconnected (peer : PeerId) (history : List Call) :
    since? peer (history ++ [.disconnected peer]) = none := by
  rw [since?, current, List.rtakeWhile_concat_neg _ _ _ (by simp)]
  rfl

/-- A call that does not disconnect the peer matters only while the peer is not connected. -/
theorem since?_snoc (h : c ≠ .disconnected peer) :
    since? peer (history ++ [c]) = (since? peer history).or (c.connects? peer) := by
  rw [since?, current, List.rtakeWhile_concat_pos _ _ _ (by simpa using h), List.findSome?_append,
    List.findSome?_singleton]
  rfl

theorem mem_peers_of_since? {time : Millis} (h : since? peer history = some time) :
    peer ∈ history.map Call.peer := by
  obtain ⟨c, hc, hconnects⟩ := List.exists_of_findSome?_eq_some h
  have hmem : c ∈ history := (List.rtakeWhile_suffix _ _).subset hc
  cases c with
  | connected p t =>
      rw [Call.connects?, Option.ite_none_right_eq_some] at hconnects
      exact List.mem_map.2 ⟨_, hmem, hconnects.1⟩
  | disconnected p => cases hconnects

theorem mem_connectedPeers_iff :
    peer ∈ connectedPeers history ↔ (since? peer history).isSome := by
  rw [connectedPeers, List.mem_filter, List.mem_dedup, and_iff_right_iff_imp]
  intro h
  obtain ⟨time, htime⟩ := Option.isSome_iff_exists.1 h
  exact mem_peers_of_since? htime

theorem nodup_connectedPeers (history : List Call) : (connectedPeers history).Nodup :=
  (List.nodup_dedup _).filter _

/-! ## Disconnecting several peers -/

theorem since?_append_disconnected (history : List Call) (peers : List PeerId) (peer : PeerId) :
    since? peer (history ++ peers.map .disconnected) =
      if peer ∈ peers then none else since? peer history := by
  induction peers using List.reverseRecOn with
  | nil => simp
  | append_singleton peers last ih =>
      rw [List.map_append, List.map_singleton, ← List.append_assoc]
      by_cases hlast : last = peer
      · subst hlast
        rw [since?_snoc_disconnected, if_pos (by simp)]
      · rw [since?_snoc (by simpa using hlast), ih]
        simp [Call.connects?, Ne.symm hlast]

/-- Disconnecting connected peers leaves the others. -/
theorem length_connectedPeers_append {peers : List PeerId} (hnodup : peers.Nodup)
    (hconnected : peers ⊆ connectedPeers history) :
    (connectedPeers (history ++ peers.map .disconnected)).length + peers.length =
      (connectedPeers history).length := by
  rw [← List.length_append]
  apply List.Perm.length_eq
  have hleft : ∀ peer, peer ∈ connectedPeers (history ++ peers.map .disconnected) ↔
      peer ∉ peers ∧ peer ∈ connectedPeers history := by
    intro peer
    rw [mem_connectedPeers_iff, mem_connectedPeers_iff, since?_append_disconnected]
    split
    case isTrue h => simp [h]
    case isFalse h => simp [h]
  have hdisjoint : (connectedPeers (history ++ peers.map .disconnected)).Disjoint peers :=
    fun peer hpeer => ((hleft peer).1 hpeer).1
  rw [List.perm_ext_iff_of_nodup ((nodup_connectedPeers _).append hnodup hdisjoint)
    (nodup_connectedPeers _)]
  intro peer
  rw [List.mem_append, hleft]
  constructor
  · rintro (h | h)
    · exact h.2
    · exact hconnected h
  · intro h
    by_cases hpeer : peer ∈ peers
    · exact .inr hpeer
    · exact .inl ⟨hpeer, h⟩

/-! ## The entries of the manager -/

/-- The manager holds the connected peers of a history with the times since when they are. -/
structure Mirrors (m : ConnectionManager) (history : List Call) : Prop where
  distinct : (Keyed.keys m.connected).Nodup
  get?_eq : ∀ peer, Keyed.get? peer m.connected = since? peer history

theorem Mirrors.connect (h : Mirrors m history) (peer : PeerId) (time : Millis) :
    Mirrors (m.connect peer time) (history ++ [.connected peer time]) := by
  have hsnoc : ∀ other, since? other (history ++ [.connected peer time]) =
      (since? other history).or (if peer = other then some time else none) :=
    fun other => since?_snoc nofun
  rw [ConnectionManager.connect]
  split
  case isTrue hcontains =>
    rw [Keyed.contains, h.get?_eq] at hcontains
    refine ⟨h.distinct, fun other => ?_⟩
    rw [h.get?_eq, hsnoc]
    by_cases hother : peer = other
    · subst hother
      rw [Option.or_of_isSome hcontains]
    · rw [if_neg hother, Option.or_none]
  case isFalse hcontains =>
    rw [Keyed.contains, h.get?_eq, Option.not_isSome_iff_eq_none] at hcontains
    refine ⟨Keyed.nodup_keys_put h.distinct _ _, fun other => ?_⟩
    rw [hsnoc]
    by_cases hother : peer = other
    · subst hother
      rw [Keyed.get?_put_self, hcontains, if_pos rfl, Option.none_or]
    · rw [Keyed.get?_put_of_ne (Ne.symm hother), h.get?_eq, if_neg hother, Option.or_none]

theorem Mirrors.disconnect (h : Mirrors m history) (peer : PeerId) :
    Mirrors (m.disconnect peer) (history ++ [.disconnected peer]) := by
  refine ⟨Keyed.nodup_keys_erase h.distinct _, fun other => ?_⟩
  by_cases hother : other = peer
  · subst hother
    rw [since?_snoc_disconnected]
    exact Keyed.get?_erase_self _ _
  · rw [since?_snoc (by simpa using Ne.symm hother), ← h.get?_eq]
    change Keyed.get? other (Keyed.erase peer m.connected) = _
    rw [Keyed.get?_erase_of_ne hother]
    exact (Option.or_none).symm

theorem Mirrors.effect (h : Mirrors m history) (c : Call) :
    Mirrors (c.effect m) (history ++ [c]) := by
  cases c with
  | connected peer time => exact h.connect peer time
  | disconnected peer => exact h.disconnect peer

/-- A manager that starts without connections mirrors its history. -/
theorem mirrors_after (h : m.connected = []) (history : List Call) :
    Mirrors (m.after history) history := by
  induction history using List.reverseRecOn with
  | nil =>
      constructor
      · simp [after, h, Keyed.keys]
      · simp [after, h, since?, current]
  | append_singleton history c ih =>
      rw [after_snoc]
      exact ih.effect c

theorem Mirrors.mem_iff (h : Mirrors m history) {time : Millis} :
    (peer, time) ∈ m.connected ↔ since? peer history = some time := by
  rw [← h.get?_eq, Keyed.mem_iff_get?_eq_some h.distinct]

theorem Mirrors.perm_connectedPeers (h : Mirrors m history) :
    (Keyed.keys m.connected).Perm (connectedPeers history) := by
  rw [List.perm_ext_iff_of_nodup h.distinct (nodup_connectedPeers history)]
  intro peer
  rw [mem_connectedPeers_iff, ← h.get?_eq, Keyed.get?_isSome_iff_mem]

/-- As many peers are counted as the history leaves connected. -/
theorem Mirrors.peerCount_eq (h : Mirrors m history) :
    m.peerCount = (connectedPeers history).length := by
  rw [← h.perm_connectedPeers.length_eq, Keyed.keys, List.length_map]
  rfl

theorem make_eq_ok {lowWater highWater : Nat} {grace : Millis}
    (h : make lowWater highWater grace = .ok m) :
    m = { lowWater, highWater, grace, connected := [] } := by
  unfold make at h
  split at h
  · cases h
  · exact (Except.ok.inj h).symm

/-! ## What no call changes -/

/-- Two managers with the same watermarks and the same grace period. -/
structure SameLimits (m m' : ConnectionManager) : Prop where
  lowWater_eq : m'.lowWater = m.lowWater
  highWater_eq : m'.highWater = m.highWater
  grace_eq : m'.grace = m.grace

theorem sameLimits_effect (m : ConnectionManager) (c : Call) : SameLimits m (c.effect m) := by
  cases c with
  | connected peer time =>
      change SameLimits m (m.connect peer time)
      rw [ConnectionManager.connect]
      split <;> exact ⟨rfl, rfl, rfl⟩
  | disconnected peer => exact ⟨rfl, rfl, rfl⟩

theorem sameLimits_after (m : ConnectionManager) (history : List Call) :
    SameLimits m (m.after history) := by
  induction history using List.reverseRecOn with
  | nil => exact ⟨rfl, rfl, rfl⟩
  | append_singleton history c ih =>
      rw [after_snoc]
      have hlast := sameLimits_effect (m.after history) c
      exact ⟨hlast.lowWater_eq.trans ih.lowWater_eq, hlast.highWater_eq.trans ih.highWater_eq,
        hlast.grace_eq.trans ih.grace_eq⟩

end ConnectionManager

end GossipDirectory
