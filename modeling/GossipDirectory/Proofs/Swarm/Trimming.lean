import GossipDirectory.Proofs.Swarm.ConnectionHistory
import Mathlib.Data.List.Lex
import Mathlib.Data.List.Permutation
import Mathlib.Data.List.Sort
import Mathlib.Data.Prod.Lex

/-!
# Trimming connections

Above the high watermark the connections to trim are a front part of a ranking: the connected peers
that are not guarded and past their grace period, the oldest connection first and peers of the same
age by their ids. There is one such ranking for a history, so the order in which the entries are
held does not matter. The part is so long that the low watermark is reached and never passed.

## Implementation notes

Entries are compared by a rank in a linear order. Different entries have different ranks.
-/

namespace GossipDirectory

/-! ## Ranks -/

/-- The place of a peer id among all ids. -/
def PeerId.rank (p : PeerId) : ℕ ×ₗ ℕ ×ₗ List ℕ :=
  toLex (p.code, toLex (p.digest.length, p.digest.map UInt8.toNat))

theorem PeerId.rank_injective : Function.Injective PeerId.rank := by
  rintro ⟨⟨code, digest⟩⟩ ⟨⟨code', digest'⟩⟩ h
  obtain ⟨hcode, h⟩ := Prod.mk.inj (toLex.injective h)
  obtain ⟨-, hdigest⟩ := Prod.mk.inj (toLex.injective h)
  have hbytes : digest = digest' := List.map_injective_iff.2 (fun _ _ => UInt8.toNat_inj.1) hdigest
  rw [hbytes, show code = code' from hcode]

theorem PeerId.bytesLe_iff (xs ys : Bytes) :
    PeerId.bytesLe xs ys = true ↔ xs.map UInt8.toNat ≤ ys.map UInt8.toNat := by
  induction xs generalizing ys with
  | nil =>
      have hle : [] ≤ ys.map UInt8.toNat := not_lt.1 (List.not_lt_nil _)
      simpa [PeerId.bytesLe] using hle
  | cons x xs ih =>
      cases ys with
      | nil =>
          simp [PeerId.bytesLe]
      | cons y ys =>
          rw [PeerId.bytesLe, List.map_cons, List.map_cons, ← not_lt, List.cons_lt_cons_iff]
          simp only [UInt8.lt_iff_toNat_lt]
          rcases Nat.lt_trichotomy x.toNat y.toNat with h | h | h
          · simp [h, Nat.lt_asymm h, Nat.ne_of_gt h]
          · simp [h, ih]
          · simp [h, Nat.lt_asymm h]

theorem PeerId.le_iff (p q : PeerId) : p.le q = true ↔ p.rank ≤ q.rank := by
  rw [PeerId.le, PeerId.rank, PeerId.rank, Prod.Lex.toLex_le_toLex, Prod.Lex.toLex_le_toLex]
  by_cases hcode : p.code = q.code
  · rw [if_neg (not_not.2 hcode)]
    by_cases hlength : p.digest.length = q.digest.length
    · simp [hcode, hlength, PeerId.bytesLe_iff]
    · simp [hcode, hlength]
  · simp [hcode]

namespace ConnectionManager

/-- The place of an entry: the time first, then the peer. -/
def rank (entry : PeerId × Millis) : ℕ ×ₗ ℕ ×ₗ ℕ ×ₗ List ℕ :=
  toLex (entry.2, entry.1.rank)

theorem rank_injective : Function.Injective rank := by
  rintro ⟨peer, time⟩ ⟨peer', time'⟩ h
  obtain ⟨htime, hpeer⟩ := Prod.mk.inj (toLex.injective h)
  exact Prod.ext (PeerId.rank_injective hpeer) htime

theorem olderFirst_iff (x y : PeerId × Millis) : olderFirst x y = true ↔ rank x ≤ rank y := by
  rw [olderFirst, rank, rank, Prod.Lex.toLex_le_toLex, ← PeerId.le_iff]
  rcases Nat.lt_trichotomy x.2 y.2 with h | h | h
  · simp [h]
  · simp [h]
  · simp [h, Nat.lt_asymm h, Nat.ne_of_gt h]

/-! ## Rankings -/

/-- The peers that may be trimmed after a history with the times since when they are connected,
the oldest connection first and peers of the same age by their ids. -/
structure Ranking (history : List Call) (now grace : Millis) (guarded : List PeerId)
    (entries : List (PeerId × Millis)) : Prop where
  mem_iff : ∀ peer time, (peer, time) ∈ entries ↔
    since? peer history = some time ∧ peer ∉ guarded ∧ grace ≤ now - time
  sorted : entries.Pairwise fun x y => rank x < rank y

variable {m : ConnectionManager} {history : List Call} {now grace : Millis}
  {guarded : List PeerId} {entries other : List (PeerId × Millis)}

/-- A history has one ranking at most. -/
theorem Ranking.unique (h : Ranking history now grace guarded entries)
    (h' : Ranking history now grace guarded other) : entries = other := by
  have hanti : Std.Antisymm fun x y : PeerId × Millis => rank x < rank y :=
    ⟨fun _ _ hlt hgt => absurd hgt (lt_asymm hlt)⟩
  have hirrefl : Std.Irrefl fun x y : PeerId × Millis => rank x < rank y :=
    ⟨fun _ => lt_irrefl _⟩
  apply h.sorted.eq_of_mem_iff h'.sorted
  rintro ⟨peer, time⟩
  rw [h.mem_iff, h'.mem_iff]

theorem Ranking.nodup_peers (h : Ranking history now grace guarded entries) :
    (entries.map (·.1)).Nodup := by
  have hentries : entries.Nodup := h.sorted.imp fun hlt heq => (heq ▸ hlt).false
  apply hentries.map_on
  rintro ⟨peer, time⟩ hx ⟨peer', time'⟩ hy rfl
  have htime : some time = some time' :=
    ((h.mem_iff peer time).1 hx).1.symm.trans ((h.mem_iff peer time').1 hy).1
  rw [Option.some.inj htime]

/-- The peers in front of a ranking are connected, each of them once. -/
theorem Ranking.front (h : Ranking history now grace guarded entries) (k : Nat) :
    ((entries.take k).map (·.1)).Nodup ∧
      (entries.take k).map (·.1) ⊆ connectedPeers history := by
  constructor
  · exact h.nodup_peers.sublist ((List.take_sublist k entries).map _)
  · intro peer hpeer
    obtain ⟨⟨p, time⟩, hentry, rfl⟩ := List.mem_map.1 hpeer
    rw [mem_connectedPeers_iff, ((h.mem_iff p time).1 (List.mem_of_mem_take hentry)).1]
    rfl

/-- The entries that may be trimmed, as the manager sorts them. -/
def candidates (m : ConnectionManager) (now : Millis) (guarded : List PeerId) :
    List (PeerId × Millis) :=
  (m.connected.filter (m.expendable now guarded)).mergeSort olderFirst

theorem trimCandidates_eq (m : ConnectionManager) (now : Millis) (guarded : List PeerId) :
    m.trimCandidates now guarded =
      if m.peerCount ≤ m.highWater then []
      else ((m.candidates now guarded).take (m.peerCount - m.lowWater)).map (·.1) := rfl

theorem pairwise_candidates (m : ConnectionManager) (now : Millis) (guarded : List PeerId) :
    (m.candidates now guarded).Pairwise fun x y => rank x ≤ rank y := by
  have hsorted : (m.candidates now guarded).Pairwise fun x y => olderFirst x y = true := by
    apply List.pairwise_mergeSort
    · intro x y z hxy hyz
      rw [olderFirst_iff] at *
      exact hxy.trans hyz
    · intro x y
      rw [Bool.or_eq_true, olderFirst_iff, olderFirst_iff]
      exact le_total _ _
  exact hsorted.imp (olderFirst_iff _ _).1

/-- What the manager sorts is the ranking of its history. -/
theorem Mirrors.ranking (h : Mirrors m history) (now : Millis) (guarded : List PeerId) :
    Ranking history now m.grace guarded (m.candidates now guarded) := by
  have hentries : m.connected.Nodup := h.distinct.of_map _
  have hnodup : (m.candidates now guarded).Nodup :=
    (List.mergeSort_perm _ _).nodup_iff.2 (hentries.filter _)
  constructor
  · intro peer time
    rw [candidates, List.mem_mergeSort, List.mem_filter, h.mem_iff]
    simp [expendable]
  · apply ((pairwise_candidates m now guarded).and hnodup).imp
    rintro x y ⟨hle, hne⟩
    exact lt_of_le_of_ne hle fun heq => hne (rank_injective heq)

/-- The order in which a manager holds its entries does not matter. -/
theorem trimCandidates_perm (hperm : entries.Perm m.connected) (now : Millis)
    (guarded : List PeerId) :
    ({ m with connected := entries } : ConnectionManager).trimCandidates now guarded =
      m.trimCandidates now guarded := by
  have hcount : ({ m with connected := entries } : ConnectionManager).peerCount = m.peerCount :=
    hperm.length_eq
  have hcandidates : ({ m with connected := entries } : ConnectionManager).candidates now guarded =
      m.candidates now guarded := by
    apply List.Perm.eq_of_pairwise _ (pairwise_candidates _ _ _) (pairwise_candidates _ _ _)
    · exact (List.mergeSort_perm _ _).trans
        ((hperm.filter _).trans (List.mergeSort_perm _ _).symm)
    · exact fun x y _ _ hxy hyx => rank_injective (le_antisymm hxy hyx)
  rw [trimCandidates_eq, trimCandidates_eq, hcount, hcandidates]

/-! ## What is trimmed -/

/-- What a manager trims by the ranking of its history. -/
theorem Mirrors.trimCandidates_eq (h : Mirrors m history)
    (hranking : Ranking history now m.grace guarded entries) :
    m.trimCandidates now guarded =
      if (connectedPeers history).length ≤ m.highWater then []
      else (entries.take ((connectedPeers history).length - m.lowWater)).map (·.1) := by
  rw [ConnectionManager.trimCandidates_eq, h.peerCount_eq,
    (h.ranking now guarded).unique hranking]

/-- Whoever is trimmed is connected, is not guarded and is past its grace period. -/
theorem Mirrors.of_mem_trimCandidates (h : Mirrors m history) {peer : PeerId}
    (hmem : peer ∈ m.trimCandidates now guarded) :
    ∃ time, since? peer history = some time ∧ peer ∉ guarded ∧ m.grace ≤ now - time := by
  have hranking := h.ranking now guarded
  rw [h.trimCandidates_eq hranking] at hmem
  split at hmem
  · cases hmem
  · obtain ⟨⟨p, time⟩, hentry, rfl⟩ := List.mem_map.1 hmem
    exact ⟨time, (hranking.mem_iff p time).1 (List.mem_of_mem_take hentry)⟩

/-- Above the high watermark a manager trims the front of the one ranking of its history, down to
the low watermark and no further; at or below the high watermark it trims nobody. No peer is trimmed
twice, and the order in which the entries are held does not matter. -/
theorem trimCandidates_after {lowWater highWater : Nat} (hwater : lowWater ≤ highWater)
    (grace : Millis) (history : List Call) (now : Millis) (guarded : List PeerId) :
    ∃ m, make lowWater highWater grace = .ok m ∧
      ∃ ranking, Ranking history now grace guarded ranking ∧
        (∀ other, Ranking history now grace guarded other → other = ranking) ∧
        let n := (connectedPeers history).length
        let trimmed := (m.after history).trimCandidates now guarded
        (n ≤ highWater → trimmed = []) ∧
        (highWater < n → lowWater < n ∧ trimmed = (ranking.take (n - lowWater)).map (·.1) ∧
          lowWater ≤ (m.after (history ++ trimmed.map .disconnected)).peerCount) ∧
        trimmed.Nodup ∧
        ∀ entries, entries.Perm (m.after history).connected →
          ({ m.after history with connected := entries } : ConnectionManager).trimCandidates
            now guarded = trimmed := by
  refine ⟨{ lowWater, highWater, grace, connected := [] }, if_neg (Nat.not_lt.2 hwater), ?_⟩
  generalize hm : ({ lowWater, highWater, grace, connected := [] } : ConnectionManager) = m
  have hmirrors : ∀ calls, Mirrors (m.after calls) calls := mirrors_after (by rw [← hm])
  have hlimits := sameLimits_after m history
  have hlow : (m.after history).lowWater = lowWater := by rw [hlimits.lowWater_eq, ← hm]
  have hhigh : (m.after history).highWater = highWater := by rw [hlimits.highWater_eq, ← hm]
  have hgrace : (m.after history).grace = grace := by rw [hlimits.grace_eq, ← hm]
  have hranking := (hmirrors history).ranking now guarded
  have htrimmed := (hmirrors history).trimCandidates_eq hranking
  rw [hgrace] at hranking
  rw [hlow, hhigh] at htrimmed
  refine ⟨_, hranking, fun other hother => hother.unique hranking, ?below, ?above, ?once, ?order⟩
  case below => exact fun h => htrimmed.trans (if_pos h)
  case above =>
    intro h
    have hfront := htrimmed.trans (if_neg (Nat.not_le.2 h))
    refine ⟨Nat.lt_of_le_of_lt hwater h, hfront, ?_⟩
    obtain ⟨hnodup, hconnected⟩ := hranking.front ((connectedPeers history).length - lowWater)
    have hremaining := length_connectedPeers_append hnodup hconnected
    rw [(hmirrors _).peerCount_eq, hfront]
    rw [List.length_map, List.length_take] at hremaining
    omega
  case once =>
    rw [htrimmed]
    split
    · exact List.nodup_nil
    · exact (hranking.front _).1
  case order => exact fun entries hperm => trimCandidates_perm hperm now guarded

/-- A peer for every byte. -/
def peerOf (b : UInt8) : PeerId :=
  { code := PeerId.sha256Code, digest := [b] }

/-- Four peers, of which the first is reported twice and the third comes back. -/
def returning : List Call :=
  [.connected (peerOf 4) 8, .connected (peerOf 3) 5, .connected (peerOf 2) 5,
    .connected (peerOf 1) 5, .connected (peerOf 1) 9, .disconnected (peerOf 3),
    .connected (peerOf 3) 20]

/-- The second peer is guarded and the third is in its grace period again. -/
theorem returning_trimmed :
    1 ≤ 2 ∧ ∃ m, make 1 2 10 = .ok m ∧
      (m.after returning).trimCandidates 25 [peerOf 2] = [peerOf 1, peerOf 4] ∧
      1 ≤ (m.after (returning ++ [peerOf 1, peerOf 4].map .disconnected)).peerCount ∧
      ({ m.after returning with connected := (m.after returning).connected.reverse } :
        ConnectionManager).trimCandidates 25 [peerOf 2] = [peerOf 1, peerOf 4] := by
  obtain ⟨m, hmake, ranking, -, -, -, habove, -, horder⟩ :=
    trimCandidates_after (show 1 ≤ 2 by decide) 10 returning 25 [peerOf 2]
  have htrimmed : (m.after returning).trimCandidates 25 [peerOf 2] = [peerOf 1, peerOf 4] := by
    cases hmake
    cbv
  refine ⟨by decide, m, hmake, htrimmed, ?_, ?_⟩
  · have hremaining := (habove (by decide)).2.2
    rwa [htrimmed] at hremaining
  · rw [horder _ (List.reverse_perm _), htrimmed]

end ConnectionManager

end GossipDirectory
