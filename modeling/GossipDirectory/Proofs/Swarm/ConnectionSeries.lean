import GossipDirectory.Proofs.Swarm.Trimming
import GossipDirectory.Proofs.Swarm.WorkerHistory
import Mathlib.Data.Set.Card

/-!
# Series of connections

Several connections to a peer can be open at a time, and they are opened and closed in any order. As
long as one of them is open their series is unbroken. The connection manager holds exactly the peers
with an open connection, each with the time at which its series began, so a further connection does
not make a peer younger and only the end of its last one forgets it. Whoever is trimmed is
connected, is no mesh neighbour and is past the grace period of the whole series.

## Implementation notes

The network tells with the end of a connection how many others to the peer remain. That this number
is right, and that open connections are told apart by their ids, is `InOrder`. Which connections are
open is read off the history alone, and so is the beginning of a series.
-/

namespace GossipDirectory

open ConnectionManager (Call since?)

namespace Worker

/-- What the network promises: a connection that is opened has an id that no open connection has,
and one that is closed was open, with as many others to its peer as are said to remain. -/
def InOrder (h : List Input) (i : Input) : Prop :=
  match i.link? with
  | none => True
  | some (.opened id _ _) => ∀ peer, ¬Open h id peer
  | some (.closed id peer remaining) =>
    Open h id peer ∧ {other | other ≠ id ∧ Open h other peer}.encard = remaining

/-- The peer has been connected without a break since a report of this time, before which it was
not. -/
def ConnectedSince (h : List Input) (peer : PeerId) (time : Millis) : Prop :=
  EverSince (fun before i => ¬ConnectedTo before peer ∧ ∃ id, i.link? = some (.opened id peer time))
    (fun before i => ConnectedTo (before ++ [i]) peer) h

/-- What the connection manager is called for. -/
def LinkReport.call? : LinkReport → Option Call
  | .opened _ peer now => some (.connected peer now)
  | .closed _ peer remaining => if remaining = 0 then some (.disconnected peer) else none

/-- The calls of the connection manager during a history. -/
def calls (h : List Input) : List Call :=
  h.filterMap fun i => i.link?.bind LinkReport.call?

variable {w : Worker} {h : List Input} {i : Input} {id : ConnectionId} {peer other : PeerId}
  {now time : Millis} {remaining : Nat}

/-! ## The open connections of a peer -/

theorem Open.peer_eq (hpeer : Open h id peer) (hother : Open h id other) : peer = other := by
  induction h using List.reverseRecOn with
  | nil => exact absurd hpeer not_open_nil
  | append_singleton h i ih =>
      cases hi : i.link? with
      | none =>
          rw [open_snoc_of_none hi] at hpeer hother
          exact ih hpeer hother
      | some report =>
          cases report with
          | opened newId p now =>
              rw [open_snoc_of_opened hi] at hpeer hother
              rcases hpeer with ⟨hid, hp⟩ | ⟨hid, hpeer⟩
              · exact hp.symm.trans (hother.resolve_right fun hlater => hlater.1 hid).2
              · exact ih hpeer (hother.resolve_left fun hlast => hid hlast.1).2
          | closed oldId p remaining =>
              rw [open_snoc_of_closed hi] at hpeer hother
              exact ih hpeer.2 hother.2

@[simp] theorem not_connectedTo_nil : ¬ConnectedTo [] peer :=
  fun ⟨_, hopen⟩ => not_open_nil hopen

theorem connectedTo_snoc_of_none (hi : i.link? = none) :
    ConnectedTo (h ++ [i]) peer ↔ ConnectedTo h peer :=
  exists_congr fun _ => open_snoc_of_none hi

theorem connectedTo_snoc_of_opened (hi : i.link? = some (.opened id other now))
    (hlaw : InOrder h i) :
    ConnectedTo (h ++ [i]) peer ↔ other = peer ∨ ConnectedTo h peer := by
  rw [InOrder, hi] at hlaw
  constructor
  · rintro ⟨openId, hopen⟩
    rw [open_snoc_of_opened hi] at hopen
    rcases hopen with ⟨-, hother⟩ | ⟨-, hopen⟩
    · exact .inl hother
    · exact .inr ⟨openId, hopen⟩
  · rintro (hother | ⟨openId, hopen⟩)
    · exact ⟨id, (open_snoc_of_opened hi).2 (.inl ⟨rfl, hother⟩)⟩
    · have hid : id ≠ openId := fun heq => hlaw peer (heq ▸ hopen)
      exact ⟨openId, (open_snoc_of_opened hi).2 (.inr ⟨hid, hopen⟩)⟩

/-- The last connection to a peer is closed when none remains. -/
theorem connectedTo_snoc_of_closed (hi : i.link? = some (.closed id other remaining))
    (hlaw : InOrder h i) :
    ConnectedTo (h ++ [i]) peer ↔ ¬(other = peer ∧ remaining = 0) ∧ ConnectedTo h peer := by
  rw [InOrder, hi] at hlaw
  obtain ⟨hclosed, hremaining⟩ := hlaw
  have hstill : ConnectedTo (h ++ [i]) peer ↔ ∃ openId, openId ≠ id ∧ Open h openId peer :=
    exists_congr fun openId => by rw [open_snoc_of_closed hi, ne_comm]
  rw [hstill]
  by_cases hpeer : other = peer
  · subst hpeer
    -- The peer of the closed connection is connected if and only if others remain.
    have hzero : remaining = 0 ↔ ¬∃ openId, openId ≠ id ∧ Open h openId other := by
      rw [← Nat.cast_eq_zero (R := ℕ∞), ← hremaining, Set.encard_eq_zero,
        Set.eq_empty_iff_forall_notMem, not_exists]
      rfl
    rw [hzero]
    constructor
    · rintro ⟨openId, hid, hopen⟩
      exact ⟨fun hnone => hnone.2 ⟨openId, hid, hopen⟩, openId, hopen⟩
    · rintro ⟨hsome, -⟩
      exact not_not.1 fun hnone => hsome ⟨rfl, hnone⟩
  · constructor
    · rintro ⟨openId, -, hopen⟩
      exact ⟨fun hlast => hpeer hlast.1, openId, hopen⟩
    · rintro ⟨-, openId, hopen⟩
      exact ⟨openId, fun heq => hpeer (hclosed.peer_eq (heq ▸ hopen)), hopen⟩

/-! ## Series -/

theorem connectedSince_snoc : ConnectedSince (h ++ [i]) peer time ↔
    (¬ConnectedTo h peer ∧ ∃ id, i.link? = some (.opened id peer time)) ∨
      ConnectedSince h peer time ∧ ConnectedTo (h ++ [i]) peer :=
  everSince_snoc

theorem ConnectedSince.connectedTo (hsince : ConnectedSince h peer time) : ConnectedTo h peer := by
  cases h using List.reverseRecOn with
  | nil => exact absurd hsince (not_everSince_nil _ _)
  | append_singleton h i =>
      rcases connectedSince_snoc.1 hsince with ⟨-, id, hi⟩ | ⟨-, hconnected⟩
      · exact ⟨id, (open_snoc_of_opened hi).2 (.inl ⟨rfl, rfl⟩)⟩
      · exact hconnected

/-- A series goes on as long as its peer is connected. -/
theorem connectedSince_snoc_of_same (hsame : ConnectedTo (h ++ [i]) peer ↔ ConnectedTo h peer) :
    ConnectedSince (h ++ [i]) peer time ↔ ConnectedSince h peer time := by
  rw [connectedSince_snoc]
  constructor
  · rintro (⟨hnew, id, hi⟩ | ⟨hsince, -⟩)
    · exact absurd (hsame.1 ⟨id, (open_snoc_of_opened hi).2 (.inl ⟨rfl, rfl⟩)⟩) hnew
    · exact hsince
  · exact fun hsince => .inr ⟨hsince, hsame.2 hsince.connectedTo⟩

/-- Whoever is connected has been so since the beginning of a series. -/
theorem exists_connectedSince_iff : (∃ time, ConnectedSince h peer time) ↔ ConnectedTo h peer := by
  refine ⟨fun ⟨_, hsince⟩ => hsince.connectedTo, fun hconnected => ?_⟩
  induction h using List.reverseRecOn with
  | nil => exact absurd hconnected not_connectedTo_nil
  | append_singleton h i ih =>
      by_cases hold : ConnectedTo h peer
      · obtain ⟨time, hsince⟩ := ih hold
        exact ⟨time, connectedSince_snoc.2 (.inr ⟨hsince, hconnected⟩)⟩
      · obtain ⟨id, hopen⟩ := hconnected
        rcases everSince_snoc.1 hopen with ⟨now, hi⟩ | ⟨hopen, -⟩
        · exact ⟨now, connectedSince_snoc.2 (.inl ⟨hold, id, hi⟩)⟩
        · exact absurd ⟨id, hopen⟩ hold

/-! ## What the connection manager holds -/

theorem calls_snoc (h : List Input) (i : Input) :
    calls (h ++ [i]) = calls h ++ (i.link?.bind LinkReport.call?).toList := by
  rw [calls, List.filterMap_append]
  cases hcall : i.link?.bind LinkReport.call? with
  | none => simp [calls, hcall]
  | some c => simp [calls, hcall]

theorem connections_after (w : Worker) (h : List Input) :
    (w.after h).connections = w.connections.after (calls h) := by
  induction h using List.reverseRecOn with
  | nil => rfl
  | append_singleton h i ih =>
      rw [after_snoc, calls_snoc]
      cases hi : i.link? with
      | none =>
          rw [(sameLinks_handle hi _).connections_eq, ih]
          simp
      | some report =>
          cases report with
          | opened id peer now =>
              rw [(handle_of_opened hi _).2, ih]
              exact (ConnectionManager.after_snoc _ _ (.connected peer now)).symm
          | closed id peer remaining =>
              rw [(handle_of_closed hi _).2, ih, Option.bind_some, LinkReport.call?]
              split
              · exact (ConnectionManager.after_snoc _ _ (.disconnected peer)).symm
              · simp

/-- The calls of the connection manager tell since when a peer is connected. -/
def Told (h : List Input) (peer : PeerId) : Prop :=
  ∀ time, since? peer (calls h) = some time ↔ ConnectedSince h peer time

theorem Told.isSome_iff (htold : Told h peer) :
    (since? peer (calls h)).isSome ↔ ConnectedTo h peer := by
  rw [Option.isSome_iff_exists, ← exists_connectedSince_iff]
  exact exists_congr htold

theorem Told.same (htold : Told h peer)
    (hcalls : since? peer (calls (h ++ [i])) = since? peer (calls h))
    (hsame : ConnectedTo (h ++ [i]) peer ↔ ConnectedTo h peer) : Told (h ++ [i]) peer := by
  intro time
  rw [hcalls, connectedSince_snoc_of_same hsame]
  exact htold time

theorem Told.opened (htold : Told h peer) (hi : i.link? = some (.opened id other now))
    (hlaw : InOrder h i) : Told (h ++ [i]) peer := by
  have hcalls : since? peer (calls (h ++ [i])) =
      (since? peer (calls h)).or (if other = peer then some now else none) := by
    rw [calls_snoc, hi]
    exact ConnectionManager.since?_snoc nofun
  have hconnected : ConnectedTo (h ++ [i]) peer ↔ other = peer ∨ ConnectedTo h peer :=
    connectedTo_snoc_of_opened hi hlaw
  by_cases hold : ConnectedTo h peer
  · apply htold.same
    · rw [hcalls, Option.or_of_isSome (htold.isSome_iff.2 hold)]
    · exact iff_of_true (hconnected.2 (.inr hold)) hold
  · have hnone : since? peer (calls h) = none := by
      rwa [← Option.not_isSome_iff_eq_none, htold.isSome_iff]
    by_cases hpeer : other = peer
    · subst hpeer
      intro time
      have hnew : ConnectedSince (h ++ [i]) other time ↔ ∃ newId, i.link? =
          some (.opened newId other time) := by
        rw [connectedSince_snoc, and_iff_right hold]
        exact or_iff_left fun hsince => hold hsince.1.connectedTo
      rw [hcalls, hnone, Option.none_or, if_pos rfl, hnew, hi]
      simp
    · apply htold.same
      · rw [hcalls, if_neg hpeer, Option.or_none]
      · rw [hconnected, or_iff_right hpeer]

theorem Told.closed (htold : Told h peer) (hi : i.link? = some (.closed id other remaining))
    (hlaw : InOrder h i) : Told (h ++ [i]) peer := by
  have hconnected : ConnectedTo (h ++ [i]) peer ↔
      ¬(other = peer ∧ remaining = 0) ∧ ConnectedTo h peer := connectedTo_snoc_of_closed hi hlaw
  by_cases hlast : other = peer ∧ remaining = 0
  · obtain ⟨rfl, rfl⟩ := hlast
    have hcalls : since? other (calls (h ++ [i])) = none := by
      rw [calls_snoc, hi]
      exact ConnectionManager.since?_snoc_disconnected _ _
    intro time
    rw [hcalls]
    exact iff_of_false nofun fun hsince => (hconnected.1 hsince.connectedTo).1 ⟨rfl, rfl⟩
  · apply htold.same
    · rw [calls_snoc, hi, Option.bind_some, LinkReport.call?]
      split
      case isTrue hremaining =>
        have hne : Call.disconnected other ≠ .disconnected peer :=
          fun heq => hlast ⟨Call.disconnected.inj heq, hremaining⟩
        rw [Option.toList_some, ConnectionManager.since?_snoc hne]
        exact Option.or_none
      case isFalse => rw [Option.toList_none, List.append_nil]
    · rw [hconnected, and_iff_right hlast]

theorem told (hlaw : Throughout InOrder h) (peer : PeerId) : Told h peer := by
  induction h using List.reverseRecOn with
  | nil => exact fun time => iff_of_false nofun (not_everSince_nil _ _)
  | append_singleton h i ih =>
      obtain ⟨hbefore, hlast⟩ := throughout_snoc.1 hlaw
      have htold := ih hbefore
      cases hi : i.link? with
      | none =>
          apply htold.same _ (connectedTo_snoc_of_none hi)
          rw [calls_snoc, hi, Option.bind_none, Option.toList_none, List.append_nil]
      | some report =>
          cases report with
          | opened id other now => exact htold.opened hi hlast
          | closed id other remaining => exact htold.closed hi hlast

/-! ## Who is trimmed -/

theorem disconnect_not_mem_settleDial (w : Worker) (id : ConnectionId)
    (result : Except Failure Unit) : Request.disconnect peer ∉ (w.settleDial id result).2 := by
  rw [settleDial_eq]
  cases Keyed.get? id w.pendingDials with
  | none => simp
  | some reply => simp

theorem disconnect_mem_trim {meshPeers : List PeerId} :
    Request.disconnect peer ∈ w.trim now meshPeers ↔
      peer ∈ w.connections.trimCandidates now meshPeers := by
  simp [trim]

theorem disconnect_mem_opened {dialed : Option Multiaddr} {meshPeers : List PeerId}
    (hmem : Request.disconnect peer ∈ (w.opened id other dialed now meshPeers).2) :
    peer ∈ (w.opened id other dialed now meshPeers).1.connections.trimCandidates now meshPeers := by
  rw [requests_opened] at hmem
  have htrimmed := (List.mem_append.1 hmem).resolve_left (disconnect_not_mem_settleDial w id _)
  split at htrimmed
  · exact disconnect_mem_trim.1 htrimmed
  · cases htrimmed

/-- Whoever is to be disconnected was chosen by the connection manager. -/
theorem mem_trimCandidates_of_disconnect (hmem : Request.disconnect peer ∈ (w.handle i).2) :
    ∃ now, i.time? = some now ∧
      peer ∈ (w.handle i).1.connections.trimCandidates now i.meshPeers := by
  cases i with
  | command answer c =>
      exact absurd ((handleCommand_spec w answer c).2 _ hmem) Bool.false_ne_true
  | report now meshPeers event =>
      cases hnews : event.isNews with
      | true =>
          exact absurd ((handleEvent_of_news hnews w now meshPeers).2 _ hmem) Bool.false_ne_true
      | false =>
          cases event with
          | established id p dialed => exact ⟨now, rfl, disconnect_mem_opened hmem⟩
          | listening address =>
              simp only [handle, handleEvent, promote] at hmem
              split at hmem
              · simp at hmem
              · simp at hmem
          | closed id p remaining =>
              obtain ⟨connections, heq⟩ := exists_closed_eq w now meshPeers id p remaining
              rw [handle, heq] at hmem
              cases hmem
          | dialFailed id p failure => exact absurd hmem (disconnect_not_mem_settleDial _ _ _)
          | _ => cases hnews
  | advertise query => simp [handle, advertise] at hmem
  | trim now meshPeers => exact ⟨now, rfl, disconnect_mem_trim.1 hmem⟩

/-- After every history that is in order the connection manager holds exactly the peers with an open
connection, each of them once and with the time since when it is connected without a break. Whoever
the next input has disconnected is connected then, is no mesh neighbour, and has been connected for
a grace period at least. -/
theorem connections_mirror_links {lowWater highWater : Nat}
    (hmake : ConnectionManager.make lowWater highWater ConnectionManager.defaultGrace =
      .ok w.connections) (hlaw : Throughout InOrder h) :
    (Keyed.keys (w.after h).connections.connected).Nodup ∧
      (∀ peer, peer ∈ Keyed.keys (w.after h).connections.connected ↔ ConnectedTo h peer) ∧
      (∀ peer time, (peer, time) ∈ (w.after h).connections.connected ↔
        ConnectedSince h peer time) ∧
      ∀ i, InOrder h i → ∀ peer, Request.disconnect peer ∈ ((w.after h).handle i).2 →
        ConnectedTo (h ++ [i]) peer ∧ peer ∉ i.meshPeers ∧
          ∃ time now, ConnectedSince (h ++ [i]) peer time ∧ i.time? = some now ∧
            time + ConnectionManager.defaultGrace ≤ now := by
  have hmade := ConnectionManager.make_eq_ok hmake
  have hmirrors (h : List Input) : ConnectionManager.Mirrors (w.after h).connections (calls h) := by
    rw [connections_after]
    exact ConnectionManager.mirrors_after (by rw [hmade]) _
  have hlimit (h : List Input) :
      (w.after h).connections.grace = ConnectionManager.defaultGrace := by
    rw [connections_after, (ConnectionManager.sameLimits_after _ _).grace_eq, hmade]
  refine ⟨(hmirrors h).distinct, fun peer => ?keys, fun peer time => ?entries, ?trimmed⟩
  case keys =>
    rw [← Keyed.get?_isSome_iff_mem, (hmirrors h).get?_eq, (told hlaw peer).isSome_iff]
  case entries =>
    rw [(hmirrors h).mem_iff]
    exact told hlaw peer time
  case trimmed =>
    intro i hi peer hmem
    obtain ⟨now, hnow, hchosen⟩ := mem_trimCandidates_of_disconnect hmem
    rw [← after_snoc] at hchosen
    obtain ⟨time, hsince, hguarded, hage⟩ := (hmirrors (h ++ [i])).of_mem_trimCandidates hchosen
    have hseries : ConnectedSince (h ++ [i]) peer time :=
      (told (throughout_snoc.2 ⟨hlaw, hi⟩) peer time).1 hsince
    refine ⟨hseries.connectedTo, hguarded, time, now, hseries, hnow, ?_⟩
    rw [hlimit] at hage
    have hlate : 0 < now - time := Nat.lt_of_lt_of_le (by decide) hage
    rw [Nat.add_comm]
    exact Nat.add_le_of_le_sub (Nat.le_of_lt (Nat.lt_of_sub_pos hlate)) hage

open ConnectionManager (peerOf)

/-- A task that wants one connection at most. -/
def reclusive : Worker :=
  newcomer (peerOf 0) 0 1

/-- A second connection to the first peer outlives the first one. Then another peer comes. -/
def overlapping : List Input :=
  [.report 5 [] (.established 1 (peerOf 1) none), .report 30000 [] (.established 2 (peerOf 1) none),
    .report 40000 [] (.closed 1 (peerOf 1) 1), .report 50000 [] (.established 3 (peerOf 2) none)]

/-- Only the first peer is old enough to be trimmed, by the age of its first connection. -/
theorem overlapping_trimmed :
    ConnectionManager.make 0 1 ConnectionManager.defaultGrace = .ok reclusive.connections ∧
      Throughout InOrder overlapping ∧
      ConnectedSince overlapping (peerOf 1) 5 ∧ ConnectedSince overlapping (peerOf 2) 50000 ∧
      ((reclusive.after overlapping).handle (.trim 60005 [])).2 = [.disconnect (peerOf 1)] ∧
      ConnectedTo (overlapping ++ [.trim 60005 []]) (peerOf 1) := by
  have hopen (h : List Input) (id : ConnectionId) (peer : PeerId) :
      Open h id peer ↔ Keyed.get? id (reclusive.after h).links = some peer :=
    (get?_links_iff (idle_newcomer _ _ _) h id peer).symm
  have hnew {h : List Input} {id : ConnectionId}
      (hnone : Keyed.get? id (reclusive.after h).links = none) (peer : PeerId) :
      ¬Open h id peer := by
    rw [hopen, hnone]
    exact nofun
  have hothers : {other | other ≠ 1 ∧ Open (overlapping.take 2) other (peerOf 1)} = {2} := by
    ext other
    change other ≠ 1 ∧ Open (overlapping.take 2) other (peerOf 1) ↔ other = 2
    rw [hopen]
    change other ≠ 1 ∧ Keyed.get? other [(1, peerOf 1), (2, peerOf 1)] = some (peerOf 1) ↔ other = 2
    simp only [Keyed.get?]
    grind
  have hlaw : Throughout InOrder overlapping := by
    change Throughout InOrder ([] ++ [_] ++ [_] ++ [_] ++ [_])
    simp only [throughout_snoc]
    exact ⟨⟨⟨⟨throughout_nil _, hnew rfl⟩, hnew rfl⟩, (hopen _ _ _).2 rfl,
      (congrArg Set.encard hothers).trans (Set.encard_singleton 2)⟩, hnew rfl⟩
  have hchosen : (reclusive.after overlapping).connections.trimCandidates 60005 [] =
      [peerOf 1] := by
    cbv
  have hrequests : ((reclusive.after overlapping).handle (.trim 60005 [])).2 =
      [.disconnect (peerOf 1)] := congrArg (List.map Request.disconnect) hchosen
  have hmake : ConnectionManager.make 0 1 ConnectionManager.defaultGrace =
      .ok reclusive.connections := rfl
  obtain ⟨-, -, hentries, htrimmed⟩ := connections_mirror_links hmake hlaw
  refine ⟨hmake, hlaw, (hentries _ _).1 (by decide), (hentries _ _).1 (by decide), hrequests, ?_⟩
  exact (htrimmed (.trim 60005 []) trivial (peerOf 1) (by rw [hrequests]; simp)).1

end Worker

end GossipDirectory
