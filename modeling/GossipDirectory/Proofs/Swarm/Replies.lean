import GossipDirectory.Proofs.Swarm.WorkerChanges
import GossipDirectory.Swarm.Task

/-!
# Answers of the network task

A request to connect is answered once: at once, or when its dial is decided. Until then it stands in
the command queue or among the pending dials. Only the end of the task loses it.

## Implementation notes

A pending dial is overwritten by another one of the same connection. The network gives a new name to
every connection that it opens, which is said of an answer by `Fresh`.
-/

namespace GossipDirectory

/-- The request that waits for the answer to a command. -/
def Command.reply? : Command → Option ReplyId
  | .publish _ => none
  | .connect _ _ reply | .knownPeers reply | .listenAddresses reply => some reply

/-- The dial that a report decides. -/
def SwarmEvent.decided? : SwarmEvent → Option ConnectionId
  | .established id _ _ | .dialFailed id _ _ => some id
  | _ => none

namespace Worker

variable {w : Worker} {reply : ReplyId}

/-- The answers among some requests. -/
def answered (reply : ReplyId) (requests : List Request) : Bool :=
  requests.any (NetworkTask.answers reply)

/-- A pending dial answers a request when it is decided. -/
def Awaits (w : Worker) (reply : ReplyId) : Prop :=
  ∃ id, Keyed.get? id w.pendingDials = some reply

theorem answered_append (before after : List Request) :
    answered reply (before ++ after) = (answered reply before || answered reply after) :=
  List.any_append

/-- Errands are no answers. -/
theorem not_answered_of_errands {requests : List Request}
    (h : ∀ r ∈ requests, r.isErrand = true) (reply : ReplyId) : answered reply requests = false := by
  refine List.any_eq_false.2 fun r hr => ?_
  have herrand := h r hr
  cases r with
  | hand | learn | dialKnown | endQuery => exact Bool.false_ne_true
  | _ => cases herrand

theorem answered_trim (w : Worker) (now : Millis) (meshPeers : List PeerId) :
    answered reply (w.trim now meshPeers) = false := by
  simp [answered, trim, NetworkTask.answers]

theorem answered_trim_if (c : Prop) [Decidable c] (w : Worker) (now : Millis)
    (meshPeers : List PeerId) :
    answered reply (if c then w.trim now meshPeers else []) = false := by
  split
  · exact answered_trim w now meshPeers
  · rfl

theorem answered_settleDial {id : ConnectionId} {result : Except Failure Unit} :
    answered reply (w.settleDial id result).2 = true ↔
      Keyed.get? id w.pendingDials = some reply := by
  rw [settleDial_eq]
  cases Keyed.get? id w.pendingDials with
  | none => simp [answered]
  | some r => simp [answered, NetworkTask.answers]

theorem answered_opened {id : ConnectionId} {peer : PeerId} {dialed : Option Multiaddr}
    {now : Millis} {meshPeers : List PeerId} :
    answered reply (w.opened id peer dialed now meshPeers).2 = true ↔
      Keyed.get? id w.pendingDials = some reply := by
  unfold opened
  dsimp only
  rw [answered_append, answered_trim_if, Bool.or_false, answered_settleDial]

theorem dialFailed_spec (w : Worker) (id : ConnectionId) (peer : Option PeerId)
    (failure : DialFailure) :
    (w.dialFailed id peer failure).1.pendingDials = Keyed.erase id w.pendingDials ∧
      ∀ reply, answered reply (w.dialFailed id peer failure).2 = true ↔
        Keyed.get? id w.pendingDials = some reply := by
  obtain ⟨book, heq⟩ := exists_dialFailed_eq w id peer failure
  rw [heq]
  exact ⟨by rw [settleDial_eq], fun reply => answered_settleDial⟩

theorem promote_spec (w : Worker) (address : Multiaddr) :
    (w.promote address).1.pendingDials = w.pendingDials ∧
      ∀ reply, answered reply (w.promote address).2 = false := by
  unfold promote
  split
  · exact ⟨rfl, fun _ => rfl⟩
  · exact ⟨rfl, fun _ => rfl⟩

/-- A report that decides no dial leaves the pending dials and answers nothing. -/
theorem handleEvent_of_undecided {event : SwarmEvent} (h : event.decided? = none) (w : Worker)
    (now : Millis) (meshPeers : List PeerId) :
    (w.handleEvent now meshPeers event).1.pendingDials = w.pendingDials ∧
      ∀ reply, answered reply (w.handleEvent now meshPeers event).2 = false := by
  cases hnews : event.isNews with
  | true =>
      obtain ⟨⟨book, rendezvous, hstate⟩, herrands⟩ := handleEvent_of_news hnews w now meshPeers
      exact ⟨by rw [hstate], not_answered_of_errands herrands⟩
  | false =>
      cases event with
      | listening address =>
          obtain ⟨listening, heq⟩ := exists_listening_eq w now meshPeers address
          rw [heq]
          exact promote_spec { w with listening } address
      | closed id peer remaining =>
          obtain ⟨connections, heq⟩ := exists_closed_eq w now meshPeers id peer remaining
          rw [heq]
          exact ⟨rfl, fun _ => rfl⟩
      | established id peer dialed => cases h
      | dialFailed id peer failure => cases h
      | _ => cases hnews

/-- A report that decides a dial answers the request that waits for it. -/
theorem handleEvent_of_decided {event : SwarmEvent} {id : ConnectionId}
    (h : event.decided? = some id) (w : Worker) (now : Millis) (meshPeers : List PeerId) :
    (w.handleEvent now meshPeers event).1.pendingDials = Keyed.erase id w.pendingDials ∧
      ∀ reply, answered reply (w.handleEvent now meshPeers event).2 = true ↔
        Keyed.get? id w.pendingDials = some reply := by
  cases event with
  | established _ peer dialed =>
      cases h
      exact ⟨congrArg pendingDials (opened_eq w id peer dialed now meshPeers),
        fun _ => answered_opened⟩
  | dialFailed _ peer failure =>
      cases h
      exact dialFailed_spec w id peer failure
  | _ => cases h

theorem pendingDials_handleEvent_of_nil (h : w.pendingDials = []) (now : Millis)
    (meshPeers : List PeerId) (event : SwarmEvent) :
    (w.handleEvent now meshPeers event).1.pendingDials = [] := by
  cases hd : event.decided? with
  | none => rw [(handleEvent_of_undecided hd w now meshPeers).1, h]
  | some id =>
      rw [(handleEvent_of_decided hd w now meshPeers).1, h]
      rfl

/-- A report keeps every request that waits, or answers it. -/
theorem awaits_or_answered_handleEvent (w : Worker) (now : Millis) (meshPeers : List PeerId)
    (event : SwarmEvent) :
    (w.handleEvent now meshPeers event).1.Awaits reply ∨
        answered reply (w.handleEvent now meshPeers event).2 = true ↔ w.Awaits reply := by
  cases hd : event.decided? with
  | none =>
      obtain ⟨hpending, hanswered⟩ := handleEvent_of_undecided hd w now meshPeers
      rw [hanswered, Awaits, hpending, Awaits]
      simp
  | some id =>
      obtain ⟨hpending, hanswered⟩ := handleEvent_of_decided hd w now meshPeers
      rw [hanswered, Awaits, hpending, Awaits]
      constructor
      · rintro (⟨id', h⟩ | h)
        · have hne : id' ≠ id := by
            rintro rfl
            rw [Keyed.get?_erase_self] at h
            cases h
          exact ⟨id', by rwa [Keyed.get?_erase_of_ne hne] at h⟩
        · exact ⟨id, h⟩
      · rintro ⟨id', h⟩
        by_cases hid : id' = id
        · exact Or.inr (hid ▸ h)
        · exact Or.inl ⟨id', by rwa [Keyed.get?_erase_of_ne hid]⟩

theorem awaits_put_iff {id : ConnectionId} (hfresh : Keyed.get? id w.pendingDials = none)
    (r : ReplyId) :
    Awaits { w with pendingDials := Keyed.put id r w.pendingDials } reply ↔
      r = reply ∨ w.Awaits reply := by
  constructor
  · rintro ⟨id', h⟩
    by_cases hid : id' = id
    · rw [hid, Keyed.get?_put_self] at h
      exact Or.inl (Option.some.inj h)
    · rw [Keyed.get?_put_of_ne hid] at h
      exact Or.inr ⟨id', h⟩
  · rintro (rfl | ⟨id', h⟩)
    · exact ⟨id, Keyed.get?_put_self _ _ _⟩
    · have hid : id' ≠ id := by
        rintro rfl
        rw [hfresh] at h
        cases h
      exact ⟨id', by rwa [Keyed.get?_put_of_ne hid]⟩

/-- A command with a request of its own answers it or lets it wait. -/
theorem awaits_or_answered_handleCommand {answer : DialAnswer}
    (hfresh : Keyed.get? answer.id w.pendingDials = none) (c : Command) (reply : ReplyId) :
    (w.handleCommand answer c).1.Awaits reply ∨
        answered reply (w.handleCommand answer c).2 = true ↔
      c.reply? = some reply ∨ w.Awaits reply := by
  cases c with
  | publish data => simp [handleCommand, answered, NetworkTask.answers, Command.reply?]
  | connect peer addresses r =>
      rcases handleCommand_connect w answer peer addresses r with ⟨result, h⟩ | h
      · rw [h]
        simp [answered, NetworkTask.answers, Command.reply?, or_comm]
      · rw [h, awaits_put_iff hfresh]
        simp [answered, NetworkTask.answers, Command.reply?]
  | knownPeers r => simp [handleCommand, answered, NetworkTask.answers, Command.reply?, or_comm]
  | listenAddresses r =>
      simp [handleCommand, answered, NetworkTask.answers, Command.reply?, or_comm]

/-- A command adds at most one pending dial. -/
theorem length_pendingDials_handleCommand (w : Worker) (answer : DialAnswer) (c : Command) :
    (w.handleCommand answer c).1.pendingDials.length ≤ w.pendingDials.length + 1 := by
  cases c with
  | publish data => exact Nat.le_succ _
  | connect peer addresses r =>
      rcases handleCommand_connect w answer peer addresses r with ⟨result, h⟩ | h
      · rw [h]
        exact Nat.le_succ _
      · rw [h]
        exact Keyed.length_put_le _ _ _
  | knownPeers r => exact Nat.le_succ _
  | listenAddresses r => exact Nat.le_succ _

end Worker

namespace NetworkTask

/-- Everything that the task can do in a state, with what it leads to. -/
inductive Steps (s : State) : Action → State → Prop
  | stop : s.stage = .serving → s.cancelled = true → Steps s .stop s.finish
  | command (answer : DialAnswer) (c : Command) (commands : Channel Command) :
    s.stage = .serving → s.commands.receive? = some (c, commands) →
      Steps s (.command answer) ({ s with commands }.did (s.worker.handleCommand answer c))
  | gossip (now : Millis) (meshPeers : List PeerId) (g : InboundGossip) : s.stage = .serving →
    Steps s (.report now meshPeers (.gossip g)) { s with stage := .handing g }
  | report (now : Millis) (meshPeers : List PeerId) (event : SwarmEvent) : s.stage = .serving →
    (∀ g, event ≠ .gossip g) →
      Steps s (.report now meshPeers event) (s.did (s.worker.handleEvent now meshPeers event))
  | advertise (query : Nat) : s.stage = .serving →
    Steps s (.advertise query) (s.did (s.worker.advertise query))
  | trim (now : Millis) (meshPeers : List PeerId) : s.stage = .serving →
    Steps s (.trim now meshPeers) (s.did (s.worker, s.worker.trim now meshPeers))
  | hand (g : InboundGossip) (inbound : Channel InboundGossip) : s.stage = .handing g →
    s.inbound.send? g = some inbound → Steps s .hand { s with inbound, stage := .serving }
  | discard (g : InboundGossip) : s.stage = .handing g → s.inbound.heard = false →
    Steps s .discard { s with stage := .serving }

theorem steps_of_step {s t : State} {a : Action} (h : step s a = some t) : Steps s a t := by
  unfold step at h
  split at h
  case h_1 hs =>
    split at h
    case isTrue hc =>
      cases h
      exact .stop hs hc
    case isFalse => cases h
  case h_2 answer hs =>
    rw [Option.map_eq_some_iff] at h
    obtain ⟨⟨c, commands⟩, hc, rfl⟩ := h
    exact .command answer c commands hs hc
  case h_3 now meshPeers g hs =>
    cases h
    exact .gossip now meshPeers g hs
  case h_4 now meshPeers event hevent hs =>
    cases h
    exact .report now meshPeers event hs hevent
  case h_5 query hs =>
    cases h
    exact .advertise query hs
  case h_6 now meshPeers hs =>
    cases h
    exact .trim now meshPeers hs
  case h_7 g hs =>
    rw [Option.map_eq_some_iff] at h
    obtain ⟨inbound, hi, rfl⟩ := h
    exact .hand g inbound hs hi
  case h_8 g hs =>
    split at h
    case isTrue => cases h
    case isFalse hi =>
      cases h
      exact .discard g hs (Bool.eq_false_iff.2 hi)
  case h_9 => cases h

/-- The network names a connection that it opens unlike all pending ones. -/
def Fresh (s : State) : Action → Prop
  | .command answer => Keyed.get? answer.id s.worker.pendingDials = none
  | _ => True

/-- A request has reached the task: it stands in the queue, waits for its dial, or is answered. -/
def State.Holds (s : State) (reply : ReplyId) : Prop :=
  (∃ c ∈ s.commands.items, c.reply? = some reply) ∨
    (s.worker.Awaits reply ∨ Worker.answered reply s.requests = true)

theorem State.resolved_eq (s : State) (reply : ReplyId) :
    s.resolved reply = (Worker.answered reply s.requests || decide (s.stage = .ended)) := rfl

/-- A command that finds room adds its request to those that have reached the task. -/
theorem State.holds_send {s : State} {c : Command} {commands : Channel Command} {reply : ReplyId}
    (hc : s.commands.send? c = some commands) :
    State.Holds { s with commands } reply ↔ s.Holds reply ∨ c.reply? = some reply := by
  have hitems : commands.items = s.commands.items ++ [c] := by
    rw [(Channel.send?_eq_some_iff.1 hc).2.2]
  unfold State.Holds
  rw [hitems]
  simp only [List.mem_append, List.mem_singleton, or_and_right, exists_or, exists_eq_left]
  constructor
  · rintro ((h | h) | h)
    · exact Or.inl (Or.inl h)
    · exact Or.inr h
    · exact Or.inl (Or.inr h)
  · rintro ((h | h) | h)
    · exact Or.inl (Or.inl h)
    · exact Or.inr h
    · exact Or.inl (Or.inr h)

/-- What the worker does with a command that was taken out of the queue keeps every request. -/
theorem State.holds_command {s : State} {answer : DialAnswer} {c : Command}
    {commands : Channel Command} {reply : ReplyId} (hc : s.commands.receive? = some (c, commands))
    (hfresh : Keyed.get? answer.id s.worker.pendingDials = none) :
    ({ s with commands }.did (s.worker.handleCommand answer c)).Holds reply ↔ s.Holds reply := by
  have hdone := Worker.awaits_or_answered_handleCommand hfresh c reply
  have hitems := (Channel.receive?_eq_some_iff.1 hc).1
  unfold State.Holds State.did
  rw [Worker.answered_append, hitems]
  simp only [Bool.or_eq_true, List.mem_cons, or_and_right, exists_or, exists_eq_left]
  constructor
  · rintro (h | h | h | h)
    · exact Or.inl (Or.inr h)
    · exact (hdone.1 (Or.inl h)).elim (fun h => Or.inl (Or.inl h)) fun h => Or.inr (Or.inl h)
    · exact Or.inr (Or.inr h)
    · exact (hdone.1 (Or.inr h)).elim (fun h => Or.inl (Or.inl h)) fun h => Or.inr (Or.inl h)
  · rintro ((h | h) | h | h)
    · exact Or.inr ((hdone.2 (Or.inl h)).imp_right Or.inr)
    · exact Or.inl h
    · exact Or.inr ((hdone.2 (Or.inr h)).imp_right Or.inr)
    · exact Or.inr (Or.inr (Or.inl h))

/-- Whatever else the worker does keeps every request if it keeps or answers those that wait. -/
theorem State.holds_did {s : State} {outcome : Worker × List Request} {reply : ReplyId}
    (hdone : outcome.1.Awaits reply ∨ Worker.answered reply outcome.2 = true ↔
      s.worker.Awaits reply) : (s.did outcome).Holds reply ↔ s.Holds reply := by
  unfold State.Holds State.did
  rw [Worker.answered_append, Bool.or_eq_true]
  apply or_congr_right
  constructor
  · rintro (h | h | h)
    · exact Or.inl (hdone.1 (Or.inl h))
    · exact Or.inr h
    · exact Or.inl (hdone.1 (Or.inr h))
  · rintro (h | h)
    · exact (hdone.2 h).imp_right Or.inr
    · exact Or.inr (Or.inl h)

/-- No step makes up a request, and none but the last loses one. -/
theorem Steps.holds_iff {s t : State} {a : Action} (h : Steps s a t) (hfresh : Fresh s a)
    (ht : t.stage ≠ .ended) (reply : ReplyId) : t.Holds reply ↔ s.Holds reply := by
  cases h with
  | stop hs hc => exact absurd rfl ht
  | command answer c commands hs hc => exact State.holds_command hc hfresh
  | gossip now meshPeers g hs => rfl
  | report now meshPeers event hs hevent =>
      exact State.holds_did (Worker.awaits_or_answered_handleEvent _ now meshPeers event)
  | advertise query hs =>
      apply State.holds_did
      simp [Worker.advertise, Worker.answered, answers, Worker.Awaits]
  | trim now meshPeers hs =>
      apply State.holds_did
      rw [Worker.answered_trim]
      simp
  | hand g inbound hs hi => rfl
  | discard g hs hi => rfl

/-- The task keeps its queues open until it ends. -/
theorem Steps.queues {s t : State} {a : Action} (h : Steps s a t) :
    t.inbound.heard = s.inbound.heard ∧ t.inbound.capacity = s.inbound.capacity ∧
      t.commands.capacity = s.commands.capacity ∧ s.stage ≠ .ended ∧
        t.commands.heard = (s.commands.heard && decide (t.stage ≠ .ended)) := by
  cases h with
  | stop hs hc => simp [State.finish, Channel.closeInput, Channel.closeOutput, hs]
  | command answer c commands hs hc =>
      rw [(Channel.receive?_eq_some_iff.1 hc).2]
      simp [State.did, hs]
  | gossip now meshPeers g hs => simp [hs]
  | report now meshPeers event hs hevent => simp [State.did, hs]
  | advertise query hs => simp [State.did, hs]
  | trim now meshPeers hs => simp [State.did, hs]
  | hand g inbound hs hi =>
      rw [(Channel.send?_eq_some_iff.1 hi).2.2]
      simp [hs]
  | discard g hs hi => simp [hs]

/-- Whatever the task does while gossip is in its hands needs room for it. -/
theorem Steps.hasRoom_of_handing {s t : State} {a : Action} {g : InboundGossip} (h : Steps s a t)
    (hg : s.stage = .handing g) (hheard : s.inbound.heard = true) : s.inbound.hasRoom = true := by
  cases h with
  | stop hs hc => cases hs.symm.trans hg
  | command answer c commands hs hc => cases hs.symm.trans hg
  | gossip now meshPeers g' hs => cases hs.symm.trans hg
  | report now meshPeers event hs hevent => cases hs.symm.trans hg
  | advertise query hs => cases hs.symm.trans hg
  | trim now meshPeers hs => cases hs.symm.trans hg
  | hand g' inbound hs hi => exact decide_eq_true (Channel.send?_eq_some_iff.1 hi).2.1
  | discard g' hs hi =>
      rw [hheard] at hi
      cases hi

theorem Steps.eq_finish {s t : State} {a : Action} (h : Steps s a t) (ht : t.stage = .ended) :
    t = s.finish := by
  cases h with
  | stop hs hc => rfl
  | command answer c commands hs hc => cases hs.symm.trans ht
  | gossip now meshPeers g hs => cases ht
  | report now meshPeers event hs hevent => cases hs.symm.trans ht
  | advertise query hs => cases hs.symm.trans ht
  | trim now meshPeers hs => cases hs.symm.trans ht
  | hand g inbound hs hi => cases ht
  | discard g hs hi => cases ht

theorem Steps.holds_of_holds {s t : State} {a : Action} (h : Steps s a t) (hfresh : Fresh s a)
    {reply : ReplyId} (hheld : t.Holds reply) : s.Holds reply := by
  by_cases ht : t.stage = .ended
  · rw [h.eq_finish ht] at hheld
    rcases hheld with ⟨c, hmem, -⟩ | hheld
    · cases hmem
    · exact Or.inr hheld
  · exact (h.holds_iff hfresh ht reply).1 hheld

end NetworkTask

end GossipDirectory
