import GossipDirectory.Proofs.Collection.Past
import GossipDirectory.Proofs.Collection.Runs
import GossipDirectory.Proofs.Swarm.Replies

/-!
# The past of the network task

The network task is given one thing after the other: commands, reports of the network and the ticks
of its timers. Which connections are open after a history of these is said here by the reports
alone: a connection is open if the last report about it opened it. What the task has noted as open
is what is open after its history, and a run of the task among its queues is such a history.

## Implementation notes

What the network says of a connection is one `LinkReport`, so a history changes the connections in
two ways only. Everything else leaves them as they are.
-/

namespace GossipDirectory

namespace Worker

/-- Something that the network task is given to do. -/
inductive Input
  | command (answer : DialAnswer) (c : Command)
  | report (now : Millis) (meshPeers : List PeerId) (event : SwarmEvent)
  | advertise (query : Nat)
  | trim (now : Millis) (meshPeers : List PeerId)
  deriving DecidableEq, Repr

/-- The task after an input, with what it asks for and answers. -/
def handle (w : Worker) : Input → Worker × List Request
  | .command answer c => w.handleCommand answer c
  | .report now meshPeers event => w.handleEvent now meshPeers event
  | .advertise query => w.advertise query
  | .trim now meshPeers => (w, w.trim now meshPeers)

/-- The task after a history. -/
def after (w : Worker) (h : List Input) : Worker :=
  h.foldl (fun w i => (w.handle i).1) w

/-- What the task asked for and answered during a history. -/
def requested (w : Worker) : List Input → List Request
  | [] => []
  | i :: rest => (w.handle i).2 ++ (w.handle i).1.requested rest

/-- What a report says about a connection. -/
inductive LinkReport
  | opened (id : ConnectionId) (peer : PeerId) (now : Millis)
  /-- So many other connections to the peer remain. -/
  | closed (id : ConnectionId) (peer : PeerId) (remaining : Nat)
  deriving DecidableEq, Repr

/-- The connection that a report is about. -/
def LinkReport.id : LinkReport → ConnectionId
  | .opened id _ _ | .closed id _ _ => id

namespace Input

/-- The time at which an input comes, if it has one. -/
def time? : Input → Option Millis
  | .report now _ _ | .trim now _ => some now
  | .command _ _ | .advertise _ => none

/-- The mesh neighbours at the time of an input. -/
def meshPeers : Input → List PeerId
  | .report _ meshPeers _ | .trim _ meshPeers => meshPeers
  | .command _ _ | .advertise _ => []

/-- What an input says about a connection. -/
def link? : Input → Option LinkReport
  | .report now _ (.established id peer _) => some (.opened id peer now)
  | .report _ _ (.closed id peer remaining) => some (.closed id peer remaining)
  | _ => none

end Input

/-- The last report about a connection opened it, to this peer. -/
def Open (h : List Input) (id : ConnectionId) (peer : PeerId) : Prop :=
  EverSince (fun _ i => ∃ now, i.link? = some (.opened id peer now))
    (fun _ i => ∀ report, i.link? = some report → report.id ≠ id) h

/-- A connection to the peer is open. -/
def ConnectedTo (h : List Input) (peer : PeerId) : Prop :=
  ∃ id, Open h id peer

/-- A network task before its first input. -/
structure Idle (w : Worker) : Prop where
  links_eq : w.links = []
  pendingDials_eq : w.pendingDials = []

/-- A task before its first input. -/
def newcomer (me : PeerId) (lowWater highWater : Nat) : Worker where
  me := me
  mode := .auto
  bootstrap := []
  connections := { lowWater, highWater, grace := ConnectionManager.defaultGrace, connected := [] }
  book := .empty
  rendezvous := .ofRoom "room" 1
  pendingDials := []
  links := []
  listening := []

theorem idle_newcomer (me : PeerId) (lowWater highWater : Nat) :
    (newcomer me lowWater highWater).Idle :=
  ⟨rfl, rfl⟩

variable {w : Worker} {h : List Input} {i : Input} {id : ConnectionId} {peer other : PeerId}
  {now : Millis} {remaining : Nat}

/-! ## One more input -/

theorem after_snoc (w : Worker) (h : List Input) (i : Input) :
    w.after (h ++ [i]) = ((w.after h).handle i).1 := by
  rw [after, List.foldl_append]
  rfl

theorem requested_snoc (w : Worker) (h : List Input) (i : Input) :
    w.requested (h ++ [i]) = w.requested h ++ ((w.after h).handle i).2 := by
  induction h generalizing w with
  | nil => exact List.append_nil _
  | cons j rest ih =>
      rw [List.cons_append, requested, requested, ih, List.append_assoc]
      rfl

@[simp] theorem not_open_nil : ¬Open [] id peer :=
  not_everSince_nil _ _

theorem open_snoc_of_none (hi : i.link? = none) : Open (h ++ [i]) id peer ↔ Open h id peer := by
  rw [Open, everSince_snoc, hi]
  simp [Open]

/-- A report that opens a connection leaves the others. -/
theorem open_snoc_of_opened {newId : ConnectionId} (hi : i.link? = some (.opened newId other now)) :
    Open (h ++ [i]) id peer ↔
      (newId = id ∧ other = peer) ∨ (newId ≠ id ∧ Open h id peer) := by
  rw [Open, everSince_snoc, hi]
  simp [Open, LinkReport.id, and_comm]

theorem open_snoc_of_closed {oldId : ConnectionId}
    (hi : i.link? = some (.closed oldId other remaining)) :
    Open (h ++ [i]) id peer ↔ oldId ≠ id ∧ Open h id peer := by
  rw [Open, everSince_snoc, hi]
  simp [Open, LinkReport.id, and_comm]

/-! ## What leaves the connections alone -/

/-- Two tasks with the same open connections and the same connection manager. -/
structure SameLinks (w w' : Worker) : Prop where
  links_eq : w'.links = w.links
  connections_eq : w'.connections = w.connections

theorem sameLinks_dialFailed (w : Worker) (id : ConnectionId) (peer : Option PeerId)
    (failure : DialFailure) : SameLinks w (w.dialFailed id peer failure).1 := by
  obtain ⟨book, heq⟩ := exists_dialFailed_eq w id peer failure
  rw [heq, settleDial_eq]
  exact ⟨rfl, rfl⟩

theorem sameLinks_handleCommand (w : Worker) (answer : DialAnswer) (c : Command) :
    SameLinks w (w.handleCommand answer c).1 := by
  obtain ⟨⟨pendingDials, hstate⟩, -⟩ := handleCommand_spec w answer c
  rw [hstate]
  exact ⟨rfl, rfl⟩

theorem sameLinks_handleEvent {meshPeers : List PeerId} {event : SwarmEvent}
    (hi : (Input.report now meshPeers event).link? = none) (w : Worker) :
    SameLinks w (w.handleEvent now meshPeers event).1 := by
  cases hnews : event.isNews with
  | true =>
      obtain ⟨⟨book, rendezvous, hstate⟩, -⟩ := handleEvent_of_news hnews w now meshPeers
      rw [hstate]
      exact ⟨rfl, rfl⟩
  | false =>
      cases event with
      | listening address =>
          obtain ⟨listening, heq⟩ := exists_listening_eq w now meshPeers address
          obtain ⟨mode, hstate⟩ := exists_promote_eq { w with listening } address
          rw [heq, hstate]
          exact ⟨rfl, rfl⟩
      | dialFailed id peer failure => exact sameLinks_dialFailed w id peer failure
      | established id peer dialed => cases hi
      | closed id peer remaining => cases hi
      | _ => cases hnews

/-- An input that says nothing about a connection leaves the connections. -/
theorem sameLinks_handle (hi : i.link? = none) (w : Worker) : SameLinks w (w.handle i).1 := by
  cases i with
  | command answer c => exact sameLinks_handleCommand w answer c
  | report now meshPeers event => exact sameLinks_handleEvent hi w
  | advertise query => exact ⟨rfl, rfl⟩
  | trim now meshPeers => exact ⟨rfl, rfl⟩

/-! ## What changes the connections -/

theorem handle_of_opened (hi : i.link? = some (.opened id peer now)) (w : Worker) :
    (w.handle i).1.links = Keyed.put id peer w.links ∧
      (w.handle i).1.connections = w.connections.connect peer now := by
  unfold Input.link? at hi
  split at hi
  case h_1 now meshPeers id peer dialed =>
    cases hi
    rw [handle, handleEvent, opened_eq]
    exact ⟨rfl, rfl⟩
  case h_2 => cases hi
  case h_3 => cases hi

theorem handle_of_closed (hi : i.link? = some (.closed id peer remaining)) (w : Worker) :
    (w.handle i).1.links = Keyed.erase id w.links ∧
      (w.handle i).1.connections =
        if remaining = 0 then w.connections.disconnect peer else w.connections := by
  unfold Input.link? at hi
  split at hi
  case h_1 => cases hi
  case h_2 now meshPeers id peer remaining =>
    cases hi
    unfold handle handleEvent
    dsimp only
    split
    · exact ⟨rfl, rfl⟩
    · exact ⟨rfl, rfl⟩
  case h_3 => cases hi

/-! ## The connections after a history -/

theorem nodup_keys_links (hw : w.Idle) (h : List Input) : (Keyed.keys (w.after h).links).Nodup := by
  induction h using List.reverseRecOn with
  | nil => simp [after, hw.links_eq, Keyed.keys]
  | append_singleton h i ih =>
      rw [after_snoc]
      cases hi : i.link? with
      | none => rwa [(sameLinks_handle hi _).links_eq]
      | some report =>
          cases report with
          | opened id peer now =>
              rw [(handle_of_opened hi _).1]
              exact Keyed.nodup_keys_put ih _ _
          | closed id peer remaining =>
              rw [(handle_of_closed hi _).1]
              exact Keyed.nodup_keys_erase ih _

/-- The task has noted exactly the open connections. -/
theorem get?_links_iff (hw : w.Idle) (h : List Input) (id : ConnectionId) (peer : PeerId) :
    Keyed.get? id (w.after h).links = some peer ↔ Open h id peer := by
  induction h using List.reverseRecOn with
  | nil => simp [after, hw.links_eq]
  | append_singleton h i ih =>
      rw [after_snoc]
      cases hi : i.link? with
      | none => rw [(sameLinks_handle hi _).links_eq, ih, open_snoc_of_none hi]
      | some report =>
          cases report with
          | opened newId other now =>
              rw [(handle_of_opened hi _).1, open_snoc_of_opened hi]
              by_cases hid : newId = id
              · subst hid
                simp
              · rw [Keyed.get?_put_of_ne (Ne.symm hid), ih]
                simp [hid]
          | closed oldId other remaining =>
              rw [(handle_of_closed hi _).1, open_snoc_of_closed hi]
              by_cases hid : oldId = id
              · subst hid
                simp
              · rw [Keyed.get?_erase_of_ne (Ne.symm hid), ih]
                simp [hid]

theorem isConnected_iff (hw : w.Idle) (h : List Input) (peer : PeerId) :
    (w.after h).isConnected peer = true ↔ ConnectedTo h peer := by
  have hnodup := nodup_keys_links hw h
  rw [isConnected, List.any_eq_true]
  constructor
  · rintro ⟨⟨id, p⟩, hmem, hp⟩
    rw [decide_eq_true_eq] at hp
    subst hp
    exact ⟨id, (get?_links_iff hw h id p).1 ((Keyed.mem_iff_get?_eq_some hnodup).1 hmem)⟩
  · rintro ⟨id, hopen⟩
    have hmem : (id, peer) ∈ (w.after h).links :=
      (Keyed.mem_iff_get?_eq_some hnodup).2 ((get?_links_iff hw h id peer).2 hopen)
    exact ⟨(id, peer), hmem, decide_eq_true rfl⟩

end Worker

/-! ## The task among its queues -/

namespace NetworkTask

variable {s t : State} {a : Action}

/-- A step among the queues gives the task one thing to do, or nothing. -/
theorem Steps.handles (h : Steps s a t) :
    (t.worker = s.worker ∧ t.requests = s.requests) ∨
      ∃ i, t.worker = (s.worker.handle i).1 ∧ t.requests = s.requests ++ (s.worker.handle i).2 := by
  cases h with
  | command answer c commands hs hc => exact .inr ⟨.command answer c, rfl, rfl⟩
  | report now meshPeers event hs hevent => exact .inr ⟨.report now meshPeers event, rfl, rfl⟩
  | advertise query hs => exact .inr ⟨.advertise query, rfl, rfl⟩
  | trim now meshPeers hs => exact .inr ⟨.trim now meshPeers, rfl, rfl⟩
  | _ => exact .inl ⟨rfl, rfl⟩

/-- What a run among the queues has made of the task is what a history makes of it, and the requests
of the run are those of the history. -/
theorem exists_history {allowed : State → Action → Prop} {actions : List Action}
    (hrun : Reaches step allowed s actions t) :
    ∃ h, t.worker = s.worker.after h ∧ t.requests = s.requests ++ s.worker.requested h := by
  induction hrun with
  | start => exact ⟨[], rfl, (List.append_nil _).symm⟩
  | step _ _ ht ih =>
      obtain ⟨h, hworker, hrequests⟩ := ih
      rcases (steps_of_step ht).handles with ⟨hsame, hnone⟩ | ⟨i, hnext, hmore⟩
      · exact ⟨h, hsame.trans hworker, hnone.trans hrequests⟩
      · refine ⟨h ++ [i], ?_, ?_⟩
        · rw [hnext, hworker, Worker.after_snoc]
        · rw [hmore, hrequests, hworker, Worker.requested_snoc, List.append_assoc]

end NetworkTask

end GossipDirectory
