import GossipDirectory.Proofs.Collection.Outcome
import GossipDirectory.Proofs.Swarm.ConnectionSeries
import GossipDirectory.Swarm.Spawn

/-!
# The past of a task that was brought up

Before it is used, a network task has met its bootstrap peers. This past is a history like any
other: it begins with a task that has no connections, and its reports keep what the network
promises. So what holds after all histories of such a task holds for a task that was brought up,
from its first command on.
-/

namespace GossipDirectory

namespace Worker

variable {w : Worker}

theorem dialReport_opens (m : Machine) (id : ConnectionId) (peer : PeerId)
    (addresses : List Multiaddr) :
    (Input.report 0 [] (dialReport m id peer addresses)).link? = some (.opened id peer 0) ∨
      (Input.report 0 [] (dialReport m id peer addresses)).link? = none := by
  unfold dialReport
  split
  · exact .inl rfl
  · exact .inr rfl

/-- Meeting a bootstrap peer goes on with reports in order, in which no other id is used. -/
theorem exists_history_meetBootstrap (m : Machine) (w : Worker) {h : List Input}
    (hlaw : Throughout InOrder h) (entry : (PeerId × Multiaddr) × ConnectionId)
    (hnew : ∀ peer, ¬Open h entry.2 peer) :
    ∃ more, meetBootstrap m (w.after h) entry = w.after (h ++ more) ∧
      Throughout InOrder (h ++ more) ∧ (∀ i ∈ more, ∃ event, i = .report 0 [] event) ∧
      ∀ id peer, id ≠ entry.2 → Open (h ++ more) id peer → Open h id peer := by
  obtain ⟨⟨peer, address⟩, newId⟩ := entry
  unfold meetBootstrap
  dsimp only
  split
  case isTrue => exact ⟨[], by rw [List.append_nil], by rwa [List.append_nil], nofun, by simp⟩
  case isFalse =>
    generalize hrouted : Input.report 0 [] (.routed peer [address] none) = routed
    have hsilent : routed.link? = none := by
      rw [← hrouted]
      rfl
    generalize hdecided : Input.report 0 [] (dialReport m newId peer [address]) = decided
    have hlink : decided.link? = some (.opened newId peer 0) ∨ decided.link? = none :=
      hdecided ▸ dialReport_opens m newId peer [address]
    refine ⟨[routed] ++ [decided], ?_, ?_, ?_, fun id p hid => ?_⟩
    · rw [← List.append_assoc, after_snoc, after_snoc, ← hrouted, ← hdecided]
      rfl
    · rw [← List.append_assoc]
      refine throughout_snoc.2 ⟨throughout_snoc.2 ⟨hlaw, by rw [InOrder, hsilent]; trivial⟩, ?_⟩
      rcases hlink with hlink | hlink
      · rw [InOrder, hlink]
        exact fun p hopen => hnew p ((open_snoc_of_none hsilent).1 hopen)
      · rw [InOrder, hlink]
        trivial
    · simp [← hrouted, ← hdecided]
    · rw [← List.append_assoc]
      rcases hlink with hlink | hlink
      · rw [open_snoc_of_opened hlink, open_snoc_of_none hsilent]
        rintro (⟨heq, -⟩ | ⟨-, hopen⟩)
        · exact absurd heq.symm hid
        · exact hopen
      · rw [open_snoc_of_none hlink, open_snoc_of_none hsilent]
        exact fun hopen => hopen

theorem exists_history_foldl (m : Machine) (w : Worker)
    (entries : List ((PeerId × Multiaddr) × ConnectionId)) (hids : (entries.map (·.2)).Nodup)
    {h : List Input} (hlaw : Throughout InOrder h)
    (hnew : ∀ entry ∈ entries, ∀ peer, ¬Open h entry.2 peer) :
    ∃ more, entries.foldl (meetBootstrap m) (w.after h) = w.after (h ++ more) ∧
      Throughout InOrder (h ++ more) ∧ ∀ i ∈ more, ∃ event, i = .report 0 [] event := by
  induction entries generalizing h with
  | nil => exact ⟨[], by rw [List.append_nil]; rfl, by rwa [List.append_nil], nofun⟩
  | cons entry rest ih =>
      rw [List.map_cons, List.nodup_cons] at hids
      obtain ⟨first, hfirst, hlaw, hreports, hopen⟩ := exists_history_meetBootstrap m w hlaw entry
        (hnew entry List.mem_cons_self)
      have hrest : ∀ later ∈ rest, ∀ peer, ¬Open (h ++ first) later.2 peer := by
        intro later hlater peer hlast
        have hid : later.2 ≠ entry.2 := fun heq => hids.1 (heq ▸ List.mem_map_of_mem hlater)
        exact hnew later (List.mem_cons_of_mem _ hlater) peer (hopen _ _ hid hlast)
      obtain ⟨more, hmore, hlaw, hlater⟩ := ih hids.2 hlaw hrest
      refine ⟨first ++ more, ?_, by rwa [← List.append_assoc], fun i hi => ?_⟩
      · rw [List.foldl_cons, hfirst, hmore, List.append_assoc]
      · exact (List.mem_append.1 hi).elim (hreports i) (hlater i)

/-- A task that was brought up has met its bootstrap peers. This is a history in order of a task
before its first input, with reports only. -/
theorem exists_history_of_spawn {settings : SwarmSettings} {m : Machine} {draws : List Nat}
    (hspawn : Worker.spawn settings m draws = .ok w) :
    ∃ (w₀ : Worker) (h : List Input), w₀.Idle ∧
      ConnectionManager.make settings.lowWater settings.highWater ConnectionManager.defaultGrace =
        .ok w₀.connections ∧
      w = w₀.after h ∧ Throughout InOrder h ∧ ∀ i ∈ h, ∃ event, i = .report 0 [] event := by
  unfold spawn at hspawn
  obtain ⟨connections, hmake, hspawn⟩ := bind_eq_ok.1 hspawn
  obtain ⟨-, -, hspawn⟩ := bind_eq_ok.1 hspawn
  obtain ⟨dht, -, hspawn⟩ := bind_eq_ok.1 hspawn
  split at hspawn
  case isTrue => cases hspawn
  case isFalse =>
    have hids : (dht.peers.zipIdx.map (·.2)).Nodup := by
      rw [List.zipIdx_map_snd]
      exact List.nodup_range'
    obtain ⟨h, hfold, hhistory⟩ := exists_history_foldl m _ dht.peers.zipIdx hids
      (throughout_nil InOrder) fun _ _ _ => not_open_nil
    exact ⟨_, h, ⟨rfl, rfl⟩, hmake, (Except.ok.inj hspawn).symm.trans hfold, hhistory⟩

end Worker

end GossipDirectory
