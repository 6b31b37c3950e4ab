import GossipDirectory.Proofs.Collection.Outcome
import GossipDirectory.Swarm.Worker

/-!
# What the network task changes

Each part of the network task changes a few fields of its state and asks for requests of a few
kinds. This is said here once for every part, so that a statement about one field or one kind of
request need not look into the parts that have nothing to do with it.
-/

namespace GossipDirectory

/-- A report about others: neither a connection nor an address of the node itself has changed. -/
def SwarmEvent.isNews : SwarmEvent → Bool
  | .gossip _ | .identified _ _ | .routed _ _ _ | .unroutable _ | .providersFound _ _
  | .queryEnded _ => true
  | .listening _ | .established _ _ _ | .closed _ _ _ | .dialFailed _ _ _ => false

/-- A request to which news can lead. -/
def Request.isErrand : Request → Bool
  | .hand _ | .learn _ _ | .dialKnown _ | .endQuery _ => true
  | .publish _ | .dial _ _ _ | .disconnect _ | .answerConnect _ _ | .answerPeers _ _
  | .answerAddresses _ _ | .setMode _ | .provide _ | .search _ _ => false

/-- A request to which a command can lead. -/
def Request.isResponse : Request → Bool
  | .publish _ | .dial _ _ _ | .answerConnect _ _ | .answerPeers _ _ | .answerAddresses _ _ => true
  | .hand _ | .learn _ _ | .dialKnown _ | .endQuery _ | .disconnect _ | .setMode _ | .provide _
  | .search _ _ => false

namespace Worker

theorem foldl_remember_eq (peer : PeerId) (addresses : List Multiaddr) (w : Worker) :
    addresses.foldl (fun w address => w.remember peer address) w =
      { w with book := addresses.foldl (fun book address => book.add peer address) w.book } := by
  induction addresses generalizing w with
  | nil => rfl
  | cons address rest ih => exact ih (w.remember peer address)

theorem settleDial_eq (w : Worker) (id : ConnectionId) (result : Except Failure Unit) :
    w.settleDial id result =
      ({ w with pendingDials := Keyed.erase id w.pendingDials },
        ((Keyed.get? id w.pendingDials).map (Request.answerConnect · result)).toList) := by
  unfold settleDial
  cases h : Keyed.get? id w.pendingDials with
  | some reply => rfl
  | none =>
      rw [Keyed.erase_of_get?_eq_none h]
      rfl

/-- Looking for providers changes budgets, dials, and ends the query. -/
theorem dialProviders_spec (w : Worker) (query : Nat) (providers : List PeerId) :
    (∃ rendezvous, (w.dialProviders query providers).1 = { w with rendezvous }) ∧
      ∀ r ∈ (w.dialProviders query providers).2,
        (∃ peer, r = .dialKnown peer) ∨ r = .endQuery query := by
  induction providers generalizing w with
  | nil => exact ⟨⟨w.rendezvous, rfl⟩, fun r hr => absurd hr List.not_mem_nil⟩
  | cons provider rest ih =>
      unfold dialProviders
      split
      case isTrue => exact ih w
      case isFalse =>
        dsimp only
        split
        case isTrue =>
          obtain ⟨⟨rendezvous, hstate⟩, hrequests⟩ :=
            ih { w with rendezvous := (w.rendezvous.accept query).2 }
          refine ⟨⟨rendezvous, hstate⟩, fun r hr => ?_⟩
          rcases List.mem_cons.1 hr with rfl | hr
          · exact .inl ⟨provider, rfl⟩
          · exact hrequests r hr
        case isFalse =>
          refine ⟨⟨_, rfl⟩, fun r hr => ?_⟩
          exact .inr (List.mem_singleton.1 hr)

/-- News changes what is known of others, and leads to nothing but errands. -/
theorem handleEvent_of_news {event : SwarmEvent} (h : event.isNews = true) (w : Worker)
    (now : Millis) (meshPeers : List PeerId) :
    (∃ book rendezvous, (w.handleEvent now meshPeers event).1 = { w with book, rendezvous }) ∧
      ∀ r ∈ (w.handleEvent now meshPeers event).2, r.isErrand = true := by
  cases event with
  | gossip g => exact ⟨⟨_, _, rfl⟩, by simp [handleEvent, Request.isErrand]⟩
  | identified peer addresses =>
      refine ⟨⟨_, _, foldl_remember_eq peer addresses w⟩, fun r hr => ?_⟩
      obtain ⟨address, -, rfl⟩ := List.mem_map.1 hr
      rfl
  | routed peer addresses evicted =>
      refine ⟨?_, fun r hr => absurd hr List.not_mem_nil⟩
      cases evicted with
      | none => exact ⟨_, _, foldl_remember_eq peer addresses w⟩
      | some old => exact ⟨_, _, foldl_remember_eq peer addresses (w.forget old)⟩
  | unroutable peer => exact ⟨⟨_, _, rfl⟩, fun r hr => absurd hr List.not_mem_nil⟩
  | providersFound query providers =>
      obtain ⟨⟨rendezvous, hstate⟩, hrequests⟩ := dialProviders_spec w query providers
      refine ⟨⟨w.book, rendezvous, hstate⟩, fun r hr => ?_⟩
      rcases hrequests r hr with ⟨peer, rfl⟩ | rfl
      · rfl
      · rfl
  | queryEnded query => exact ⟨⟨_, _, rfl⟩, fun r hr => absurd hr List.not_mem_nil⟩
  | _ => cases h

/-- A connection that opens settles its dial; its peer is known by the address that was dialed. -/
theorem opened_eq (w : Worker) (id : ConnectionId) (peer : PeerId) (dialed : Option Multiaddr)
    (now : Millis) (meshPeers : List PeerId) :
    (w.opened id peer dialed now meshPeers).1 =
      { w with
        pendingDials := Keyed.erase id w.pendingDials
        book := dialed.elim w.book (w.book.add peer)
        links := Keyed.put id peer w.links
        connections := w.connections.connect peer now } := by
  unfold opened
  rw [settleDial_eq]
  cases dialed <;> rfl

/-- Once a connection is open, its dial is answered and what is too many is trimmed. -/
theorem requests_opened (w : Worker) (id : ConnectionId) (peer : PeerId)
    (dialed : Option Multiaddr) (now : Millis) (meshPeers : List PeerId) :
    let w' := (w.opened id peer dialed now meshPeers).1
    (w.opened id peer dialed now meshPeers).2 = (w.settleDial id (.ok ())).2 ++
      if w'.connections.highWater < w'.connections.peerCount then w'.trim now meshPeers else [] :=
  rfl

/-- A connection that closes is no link any more, and nothing is asked for. -/
theorem exists_closed_eq (w : Worker) (now : Millis) (meshPeers : List PeerId)
    (id : ConnectionId) (peer : PeerId) (remaining : Nat) :
    ∃ connections, w.handleEvent now meshPeers (.closed id peer remaining) =
      ({ w with links := Keyed.erase id w.links, connections }, []) := by
  unfold handleEvent
  dsimp only
  split
  · exact ⟨_, rfl⟩
  · exact ⟨_, rfl⟩

theorem exists_promote_eq (w : Worker) (address : Multiaddr) :
    ∃ mode, (w.promote address).1 = { w with mode } := by
  unfold promote
  split
  · exact ⟨_, rfl⟩
  · exact ⟨w.mode, rfl⟩

/-- Whether an address is noted already or not, it may promote the task. -/
theorem exists_listening_eq (w : Worker) (now : Millis) (meshPeers : List PeerId)
    (address : Multiaddr) :
    ∃ listening, w.handleEvent now meshPeers (.listening address) =
      { w with listening }.promote address := by
  unfold handleEvent
  dsimp only
  split
  · exact ⟨w.listening, rfl⟩
  · exact ⟨_, rfl⟩

/-- Whether the peer of a failed dial is forgotten or not, the dial is settled as a failure. -/
theorem exists_dialFailed_eq (w : Worker) (id : ConnectionId) (peer : Option PeerId)
    (failure : DialFailure) :
    ∃ book, w.dialFailed id peer failure =
      { w with book }.settleDial id (.error (.transport failure.cause)) := by
  unfold dialFailed
  cases peer with
  | none => exact ⟨w.book, rfl⟩
  | some peer =>
      dsimp only
      split
      · exact ⟨w.book, rfl⟩
      · exact ⟨_, rfl⟩

/-- A request to connect is answered at once or waits for a dial. -/
theorem handleCommand_connect (w : Worker) (answer : DialAnswer) (peer : PeerId)
    (addresses : List Multiaddr) (r : ReplyId) :
    (∃ result, w.handleCommand answer (.connect peer addresses r) =
        (w, [.answerConnect r result])) ∨
      w.handleCommand answer (.connect peer addresses r) =
        ({ w with pendingDials := Keyed.put answer.id r w.pendingDials },
          [.dial answer.id peer addresses]) := by
  simp only [handleCommand]
  by_cases hc : w.isConnected peer
  · rw [if_pos hc]
    exact Or.inl ⟨.ok (), rfl⟩
  · rw [if_neg hc]
    cases answer.refusal with
    | some cause => exact Or.inl ⟨.error (.transport cause), rfl⟩
    | none => exact Or.inr rfl

/-- A command changes which dials are awaited, and leads to nothing but responses. -/
theorem handleCommand_spec (w : Worker) (answer : DialAnswer) (c : Command) :
    (∃ pendingDials, (w.handleCommand answer c).1 = { w with pendingDials }) ∧
      ∀ r ∈ (w.handleCommand answer c).2, r.isResponse = true := by
  cases c with
  | connect peer addresses reply =>
      rcases handleCommand_connect w answer peer addresses reply with ⟨result, heq⟩ | heq
      · rw [heq]
        exact ⟨⟨_, rfl⟩, by simp [Request.isResponse]⟩
      · rw [heq]
        exact ⟨⟨_, rfl⟩, by simp [Request.isResponse]⟩
  | publish data => exact ⟨⟨_, rfl⟩, by simp [handleCommand, Request.isResponse]⟩
  | knownPeers reply => exact ⟨⟨_, rfl⟩, by simp [handleCommand, Request.isResponse]⟩
  | listenAddresses reply => exact ⟨⟨_, rfl⟩, by simp [handleCommand, Request.isResponse]⟩

end Worker

end GossipDirectory
