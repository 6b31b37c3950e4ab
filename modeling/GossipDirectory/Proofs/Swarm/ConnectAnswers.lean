import GossipDirectory.Proofs.Swarm.Trimming
import GossipDirectory.Proofs.Swarm.WorkerHistory

/-!
# Answers to requests to connect

A request to connect is answered at once if the peer is connected or the dial is refused. Otherwise
its dial is pending until the report that decides this very dial, and that report answers it. So the
pending dials are the accepted ones without such a report, and every request is waiting or has got
one answer, which says what happened to it.

## Implementation notes

Requests are told apart by the names under which their answers are awaited, and pending dials by the
ids of their connections. That neither is given out twice is `Fresh`. Reports about connections that
nobody waits for may come at any time.
-/

namespace GossipDirectory

/-- The answer to a request to connect. -/
def Request.result? (reply : ReplyId) : Request → Option (Except Failure Unit)
  | .answerConnect r result => if r = reply then some result else none
  | _ => none

namespace Worker

/-- The answers to a request to connect, in order. -/
def results (reply : ReplyId) (requests : List Request) : List (Except Failure Unit) :=
  requests.filterMap (Request.result? reply)

namespace Input

/-- The request to connect that an input makes. -/
def asks? : Input → Option ReplyId
  | .command _ (.connect _ _ reply) => some reply
  | _ => none

/-- The dial that an input decides, with what whoever waits for it is told. -/
def outcome? : Input → Option (ConnectionId × Except Failure Unit)
  | .report _ _ (.established id _ _) => some (id, .ok ())
  | .report _ _ (.dialFailed id _ failure) => some (id, .error (.transport failure.cause))
  | _ => none

end Input

/-- A request to connect was made. -/
def Asked (h : List Input) (reply : ReplyId) : Prop :=
  Happened (fun _ i => i.asks? = some reply) h

/-- An input makes a request to connect for which a dial is accepted. -/
def Dials (before : List Input) (i : Input) (id : ConnectionId) (reply : ReplyId) : Prop :=
  ∃ answer peer addresses, i = .command answer (.connect peer addresses reply) ∧
    answer.id = id ∧ answer.refusal = none ∧ ¬ConnectedTo before peer

/-- A dial was accepted for a request, and no report has decided it. -/
def Undecided (h : List Input) (id : ConnectionId) (reply : ReplyId) : Prop :=
  EverSince (fun before i => Dials before i id reply)
    (fun _ i => ∀ result, i.outcome? ≠ some (id, result)) h

/-- A new request has a name of its own, and a new dial is told apart from all undecided ones. -/
structure Fresh (before : List Input) (i : Input) : Prop where
  reply : ∀ reply, i.asks? = some reply → ¬Asked before reply
  dial : ∀ id reply, Dials before i id reply → ∀ other, ¬Undecided before id other

/-- What has to be answered to a request: at once if there is nothing to dial or the dial is
refused, and otherwise when a report decides the dial of this very request. -/
inductive Answers (before : List Input) : Input → ReplyId → Except Failure Unit → Prop
  | connected (answer : DialAnswer) (peer : PeerId) (addresses : List Multiaddr)
    (reply : ReplyId) : ConnectedTo before peer →
      Answers before (.command answer (.connect peer addresses reply)) reply (.ok ())
  | refused (answer : DialAnswer) (peer : PeerId) (addresses : List Multiaddr) (reply : ReplyId)
    (cause : TransportError) : ¬ConnectedTo before peer → answer.refusal = some cause →
      Answers before (.command answer (.connect peer addresses reply)) reply
        (.error (.transport cause))
  | established (now : Millis) (meshPeers : List PeerId) (id : ConnectionId) (peer : PeerId)
    (dialed : Option Multiaddr) (reply : ReplyId) : Undecided before id reply →
      Answers before (.report now meshPeers (.established id peer dialed)) reply (.ok ())
  | failed (now : Millis) (meshPeers : List PeerId) (id : ConnectionId) (peer : Option PeerId)
    (failure : DialFailure) (reply : ReplyId) : Undecided before id reply →
      Answers before (.report now meshPeers (.dialFailed id peer failure)) reply
        (.error (.transport failure.cause))

variable {w : Worker} {h : List Input} {i : Input} {id : ConnectionId} {reply : ReplyId}
  {result : Except Failure Unit}

/-! ## One more input -/

theorem Input.asks_or_decides (i : Input) :
    (∃ answer peer addresses reply, i = .command answer (.connect peer addresses reply)) ∨
      (∃ id result, i.outcome? = some (id, result)) ∨ (i.asks? = none ∧ i.outcome? = none) := by
  cases i with
  | command answer c =>
      cases c with
      | connect peer addresses reply => exact .inl ⟨answer, peer, addresses, reply, rfl⟩
      | _ => exact .inr (.inr ⟨rfl, rfl⟩)
  | report now meshPeers event =>
      cases event with
      | established id peer dialed => exact .inr (.inl ⟨id, _, rfl⟩)
      | dialFailed id peer failure => exact .inr (.inl ⟨id, _, rfl⟩)
      | _ => exact .inr (.inr ⟨rfl, rfl⟩)
  | advertise query => exact .inr (.inr ⟨rfl, rfl⟩)
  | trim now meshPeers => exact .inr (.inr ⟨rfl, rfl⟩)

theorem Input.exists_connect (hi : i.asks? = some reply) :
    ∃ answer peer addresses, i = .command answer (.connect peer addresses reply) := by
  unfold Input.asks? at hi
  split at hi
  case h_1 answer peer addresses r =>
    cases hi
    exact ⟨answer, peer, addresses, rfl⟩
  case h_2 => cases hi

theorem Dials.asks? {before : List Input} (hdials : Dials before i id reply) :
    i.asks? = some reply := by
  obtain ⟨answer, peer, addresses, rfl, -⟩ := hdials
  rfl

theorem not_dials_of_none {before : List Input} (hasks : i.asks? = none) :
    ¬Dials before i id reply := by
  intro hdials
  rw [hdials.asks?] at hasks
  cases hasks

theorem asked_snoc : Asked (h ++ [i]) reply ↔ Asked h reply ∨ i.asks? = some reply :=
  happened_snoc

theorem undecided_snoc : Undecided (h ++ [i]) id reply ↔
    Dials h i id reply ∨ Undecided h id reply ∧ ∀ result, i.outcome? ≠ some (id, result) :=
  everSince_snoc

theorem undecided_snoc_of_none (hi : i.outcome? = none) :
    Undecided (h ++ [i]) id reply ↔ Dials h i id reply ∨ Undecided h id reply := by
  rw [undecided_snoc, hi]
  simp

theorem results_append (reply : ReplyId) (before after : List Request) :
    results reply (before ++ after) = results reply before ++ results reply after :=
  List.filterMap_append

theorem results_requested_snoc (w : Worker) (h : List Input) (i : Input) (reply : ReplyId) :
    results reply (w.requested (h ++ [i])) =
      results reply (w.requested h) ++ results reply ((w.after h).handle i).2 := by
  rw [requested_snoc, results_append]

theorem results_of_not_answered {requests : List Request} (h : answered reply requests = false) :
    results reply requests = [] := by
  rw [answered, List.any_eq_false] at h
  rw [results, List.filterMap_eq_nil_iff]
  intro request hmem
  have hrequest := h request hmem
  cases request with
  | answerConnect r result => simpa [Request.result?, NetworkTask.answers] using hrequest
  | _ => rfl

/-! ## What one input does -/

theorem results_settleDial (w : Worker) (id : ConnectionId) (result : Except Failure Unit)
    (reply : ReplyId) : results reply (w.settleDial id result).2 =
      if Keyed.get? id w.pendingDials = some reply then [result] else [] := by
  rw [settleDial_eq]
  cases Keyed.get? id w.pendingDials with
  | none => rfl
  | some r =>
      by_cases hr : r = reply
      · simp [results, Request.result?, hr]
      · simp [results, Request.result?, hr]

/-- A report that decides a dial takes it from the pending ones and answers whoever waits for it. -/
theorem handle_of_outcome (hi : i.outcome? = some (id, result)) (w : Worker) (reply : ReplyId) :
    (w.handle i).1.pendingDials = Keyed.erase id w.pendingDials ∧
      results reply (w.handle i).2 =
        if Keyed.get? id w.pendingDials = some reply then [result] else [] := by
  unfold Input.outcome? at hi
  split at hi
  case h_1 now meshPeers id peer dialed =>
    cases hi
    refine ⟨congrArg pendingDials (opened_eq w id peer dialed now meshPeers), ?_⟩
    change results reply (w.opened id peer dialed now meshPeers).2 = _
    rw [requests_opened, results_append, results_settleDial,
      results_of_not_answered (answered_trim_if _ _ now meshPeers), List.append_nil]
  case h_2 now meshPeers id peer failure =>
    cases hi
    refine ⟨(dialFailed_spec w id peer failure).1, ?_⟩
    obtain ⟨book, heq⟩ := exists_dialFailed_eq w id peer failure
    change results reply (w.dialFailed id peer failure).2 = _
    rw [heq, results_settleDial]
  case h_3 => cases hi

/-- An input that neither asks nor decides leaves the pending dials and answers nobody. -/
theorem handle_of_neither (hasks : i.asks? = none) (hi : i.outcome? = none) (w : Worker)
    (reply : ReplyId) :
    (w.handle i).1.pendingDials = w.pendingDials ∧ results reply (w.handle i).2 = [] := by
  cases i with
  | command answer c =>
      cases c with
      | connect peer addresses r => cases hasks
      | publish data => exact ⟨rfl, rfl⟩
      | knownPeers r => exact ⟨rfl, rfl⟩
      | listenAddresses r => exact ⟨rfl, rfl⟩
  | report now meshPeers event =>
      have hundecided : event.decided? = none := by
        cases event with
        | established id peer dialed => cases hi
        | dialFailed id peer failure => cases hi
        | _ => rfl
      obtain ⟨hpending, hanswered⟩ := handleEvent_of_undecided hundecided w now meshPeers
      exact ⟨hpending, results_of_not_answered (hanswered reply)⟩
  | advertise query => exact ⟨rfl, rfl⟩
  | trim now meshPeers => exact ⟨rfl, results_of_not_answered (answered_trim w now meshPeers)⟩

section Connect

variable {answer : DialAnswer} {peer : PeerId} {addresses : List Multiaddr} {r : ReplyId}

theorem handle_connect_of_connected (hconnected : w.isConnected peer = true) :
    w.handle (.command answer (.connect peer addresses r)) =
      (w, [.answerConnect r (.ok ())]) :=
  if_pos hconnected

theorem handle_connect_of_refused (hconnected : ¬w.isConnected peer = true)
    {cause : TransportError} (hrefusal : answer.refusal = some cause) :
    w.handle (.command answer (.connect peer addresses r)) =
      (w, [.answerConnect r (.error (.transport cause))]) := by
  rw [handle, handleCommand, if_neg hconnected, hrefusal]

theorem handle_connect_of_accepted (hconnected : ¬w.isConnected peer = true)
    (hrefusal : answer.refusal = none) :
    w.handle (.command answer (.connect peer addresses r)) =
      ({ w with pendingDials := Keyed.put answer.id r w.pendingDials },
        [.dial answer.id peer addresses]) := by
  rw [handle, handleCommand, if_neg hconnected, hrefusal]

theorem dials_connect_iff : Dials h (.command answer (.connect peer addresses r)) id reply ↔
    r = reply ∧ answer.id = id ∧ answer.refusal = none ∧ ¬ConnectedTo h peer := by
  constructor
  · rintro ⟨_, _, _, hi, hdials⟩
    cases hi
    exact ⟨rfl, hdials⟩
  · rintro ⟨rfl, hdials⟩
    exact ⟨answer, peer, addresses, rfl, hdials⟩

theorem answers_connect_iff : Answers h (.command answer (.connect peer addresses r)) reply result ↔
    r = reply ∧ ((ConnectedTo h peer ∧ result = .ok ()) ∨
      ∃ cause, ¬ConnectedTo h peer ∧ answer.refusal = some cause ∧
        result = .error (.transport cause)) := by
  constructor
  · intro hanswers
    cases hanswers with
    | connected _ _ _ _ hconnected => exact ⟨rfl, .inl ⟨hconnected, rfl⟩⟩
    | refused _ _ _ _ cause hconnected hrefusal =>
        exact ⟨rfl, .inr ⟨cause, hconnected, hrefusal, rfl⟩⟩
  · rintro ⟨rfl, ⟨hconnected, rfl⟩ | ⟨cause, hconnected, hrefusal, rfl⟩⟩
    · exact .connected _ _ _ _ hconnected
    · exact .refused _ _ _ _ _ hconnected hrefusal

end Connect

theorem answers_of_outcome_iff {decided : Except Failure Unit}
    (hi : i.outcome? = some (id, decided)) :
    Answers h i reply result ↔ Undecided h id reply ∧ result = decided := by
  unfold Input.outcome? at hi
  split at hi
  case h_1 now meshPeers id peer dialed =>
    cases hi
    constructor
    · intro hanswers
      cases hanswers with
      | established _ _ _ _ _ _ hundecided => exact ⟨hundecided, rfl⟩
    · rintro ⟨hundecided, rfl⟩
      exact .established _ _ _ _ _ _ hundecided
  case h_2 now meshPeers id peer failure =>
    cases hi
    constructor
    · intro hanswers
      cases hanswers with
      | failed _ _ _ _ _ _ hundecided => exact ⟨hundecided, rfl⟩
    · rintro ⟨hundecided, rfl⟩
      exact .failed _ _ _ _ _ _ hundecided
  case h_3 => cases hi

theorem Input.asks?_of_outcome {decided : ConnectionId × Except Failure Unit}
    (hi : i.outcome? = some decided) : i.asks? = none := by
  unfold Input.outcome? at hi
  split at hi
  case h_1 => rfl
  case h_2 => rfl
  case h_3 => cases hi

/-- Only what asks or decides is answered. -/
theorem Answers.asks_or_decides (hanswers : Answers h i reply result) :
    i.asks? = some reply ∨ ∃ id, i.outcome? = some (id, result) := by
  cases hanswers with
  | connected _ _ _ _ _ => exact .inl rfl
  | refused _ _ _ _ _ _ _ => exact .inl rfl
  | established _ _ id _ _ _ _ => exact .inr ⟨id, rfl⟩
  | failed _ _ id _ _ _ _ => exact .inr ⟨id, rfl⟩

/-! ## The pending dials -/

theorem nodup_keys_pendingDials (hidle : w.Idle) (h : List Input) :
    (Keyed.keys (w.after h).pendingDials).Nodup := by
  induction h using List.reverseRecOn with
  | nil => simp [after, hidle.pendingDials_eq, Keyed.keys]
  | append_singleton h i ih =>
      rw [after_snoc]
      rcases i.asks_or_decides with ⟨answer, peer, addresses, r, rfl⟩ | ⟨id, result, hi⟩ |
        ⟨hasks, hi⟩
      · rcases handleCommand_connect (w.after h) answer peer addresses r with ⟨result, heq⟩ | heq
        · rw [handle, heq]
          exact ih
        · rw [handle, heq]
          exact Keyed.nodup_keys_put ih _ _
      · rw [(handle_of_outcome hi _ 0).1]
        exact Keyed.nodup_keys_erase ih _
      · rwa [(handle_of_neither hasks hi _ 0).1]

/-- A request adds its dial to the pending ones if the dial is accepted. -/
theorem get?_pendingDials_connect_iff (hidle : w.Idle) {answer : DialAnswer} {peer : PeerId}
    {addresses : List Multiaddr} {r : ReplyId}
    (hpending : ∀ id reply,
      Keyed.get? id (w.after h).pendingDials = some reply ↔ Undecided h id reply)
    (hlast : Fresh h (.command answer (.connect peer addresses r))) :
    Keyed.get? id
        ((w.after h).handle (.command answer (.connect peer addresses r))).1.pendingDials =
          some reply ↔
      Dials h (.command answer (.connect peer addresses r)) id reply ∨ Undecided h id reply := by
  rw [dials_connect_iff, ← hpending id reply]
  by_cases hconnected : (w.after h).isConnected peer = true
  · rw [handle_connect_of_connected hconnected]
    rw [isConnected_iff hidle] at hconnected
    simp [hconnected]
  · cases hrefusal : answer.refusal with
    | some cause =>
        rw [handle_connect_of_refused hconnected hrefusal]
        simp
    | none =>
        rw [handle_connect_of_accepted hconnected hrefusal]
        rw [isConnected_iff hidle] at hconnected
        by_cases hid : answer.id = id
        · subst hid
          have hnew : Keyed.get? answer.id (w.after h).pendingDials ≠ some reply := by
            rw [Ne, hpending]
            exact hlast.dial _ r (dials_connect_iff.2 ⟨rfl, rfl, hrefusal, hconnected⟩) reply
          rw [Keyed.get?_put_self, or_iff_left hnew]
          simp [hconnected]
        · rw [Keyed.get?_put_of_ne (Ne.symm hid)]
          simp [hid]

/-- The pending dials are the accepted ones that no report has decided. -/
theorem get?_pendingDials_iff (hidle : w.Idle) (hlaw : Throughout Fresh h) (id : ConnectionId)
    (reply : ReplyId) :
    Keyed.get? id (w.after h).pendingDials = some reply ↔ Undecided h id reply := by
  induction h using List.reverseRecOn generalizing id reply with
  | nil =>
      apply iff_of_false
      · simp [after, hidle.pendingDials_eq]
      · exact not_everSince_nil _ _
  | append_singleton h i ih =>
      obtain ⟨hbefore, hlast⟩ := throughout_snoc.1 hlaw
      have hpending := ih hbefore
      rw [after_snoc]
      rcases i.asks_or_decides with ⟨answer, peer, addresses, r, rfl⟩ | ⟨decided, result, hi⟩ |
        ⟨hasks, hi⟩
      · rw [undecided_snoc_of_none rfl]
        exact get?_pendingDials_connect_iff hidle hpending hlast
      · have hasked : ¬Dials h i id reply := not_dials_of_none (Input.asks?_of_outcome hi)
        rw [(handle_of_outcome hi _ reply).1, undecided_snoc, or_iff_right hasked,
          ← hpending id reply, hi]
        by_cases hid : id = decided
        · subst hid
          simp
        · rw [Keyed.get?_erase_of_ne hid]
          simp [Ne.symm hid]
      · have hasked : ¬Dials h i id reply := not_dials_of_none hasks
        rw [(handle_of_neither hasks hi _ reply).1, undecided_snoc_of_none hi, or_iff_right hasked,
          hpending]

/-! ## The answers -/

/-- A request is given exactly the answers that it has to be given. -/
theorem mem_results_handle_iff (hidle : w.Idle) (hlaw : Throughout Fresh h) :
    result ∈ results reply ((w.after h).handle i).2 ↔ Answers h i reply result := by
  rcases i.asks_or_decides with ⟨answer, peer, addresses, r, rfl⟩ | ⟨id, decided, hi⟩ | ⟨hasks, hi⟩
  · rw [answers_connect_iff]
    by_cases hconnected : (w.after h).isConnected peer = true
    · rw [handle_connect_of_connected hconnected]
      rw [isConnected_iff hidle] at hconnected
      simp [results, Request.result?, hconnected, eq_comm]
    · cases hrefusal : answer.refusal with
      | some cause =>
          rw [handle_connect_of_refused hconnected hrefusal]
          rw [isConnected_iff hidle] at hconnected
          simp [results, Request.result?, hconnected, eq_comm]
      | none =>
          rw [handle_connect_of_accepted hconnected hrefusal]
          rw [isConnected_iff hidle] at hconnected
          simp [results, Request.result?, hconnected]
  · rw [(handle_of_outcome hi _ reply).2, answers_of_outcome_iff hi,
      ← get?_pendingDials_iff hidle hlaw id reply]
    split
    case isTrue hpending => simp [hpending]
    case isFalse hpending => simp [hpending]
  · rw [(handle_of_neither hasks hi _ reply).2]
    apply iff_of_false List.not_mem_nil
    intro hanswers
    rcases hanswers.asks_or_decides with hasked | ⟨id, hdecided⟩
    · rw [hasks] at hasked
      cases hasked
    · rw [hi] at hdecided
      cases hdecided

theorem mem_results_iff (hidle : w.Idle) (hlaw : Throughout Fresh h) :
    result ∈ results reply (w.requested h) ↔
      Happened (fun before i => Answers before i reply result) h := by
  induction h using List.reverseRecOn with
  | nil => simp [requested, results]
  | append_singleton h i ih =>
      have hbefore := (throughout_snoc.1 hlaw).1
      rw [results_requested_snoc, List.mem_append, ih hbefore, happened_snoc,
        mem_results_handle_iff hidle hbefore]

/-- How far a request to connect has come. -/
inductive Progress (w : Worker) (h : List Input) (reply : ReplyId) : Prop
  | unasked : ¬Asked h reply → results reply (w.requested h) = [] →
    (∀ id, ¬Undecided h id reply) → Progress w h reply
  | waiting (id : ConnectionId) : Asked h reply → results reply (w.requested h) = [] →
    (∀ other, Undecided h other reply ↔ other = id) → Progress w h reply
  | answered (result : Except Failure Unit) : Asked h reply →
    results reply (w.requested h) = [result] → (∀ id, ¬Undecided h id reply) → Progress w h reply

theorem Progress.unasked_of_fresh (hprogress : Progress w h reply) (hnew : ¬Asked h reply) :
    results reply (w.requested h) = [] ∧ ∀ id, ¬Undecided h id reply := by
  cases hprogress with
  | unasked _ hresults hnone => exact ⟨hresults, hnone⟩
  | waiting _ hasked _ _ => exact absurd hasked hnew
  | answered _ hasked _ _ => exact absurd hasked hnew

/-- A request that is made is answered at once or waits for its dial. -/
theorem Progress.ask (hprogress : Progress w h reply) (hidle : w.Idle) {answer : DialAnswer}
    {peer : PeerId} {addresses : List Multiaddr}
    (hlast : Fresh h (.command answer (.connect peer addresses reply))) :
    Progress w (h ++ [.command answer (.connect peer addresses reply)]) reply := by
  obtain ⟨hresults, hnone⟩ := hprogress.unasked_of_fresh (hlast.reply reply rfl)
  have hasked : Asked (h ++ [.command answer (.connect peer addresses reply)]) reply :=
    asked_snoc.2 (.inr rfl)
  have hwaits (other : ConnectionId) :
      Undecided (h ++ [.command answer (.connect peer addresses reply)]) other reply ↔
        answer.id = other ∧ answer.refusal = none ∧ ¬ConnectedTo h peer := by
    rw [undecided_snoc_of_none rfl, or_iff_left (hnone other), dials_connect_iff,
      and_iff_right rfl]
  have hanswers {result : Except Failure Unit} (hgiven : results reply
      ((w.after h).handle (.command answer (.connect peer addresses reply))).2 = [result]) :
      results reply (w.requested (h ++ [.command answer (.connect peer addresses reply)])) =
        [result] := by
    rw [results_requested_snoc, hresults, hgiven, List.nil_append]
  by_cases hconnected : (w.after h).isConnected peer = true
  · refine .answered (.ok ()) hasked (hanswers ?_) fun other hwaiting => ?_
    · rw [handle_connect_of_connected hconnected]
      simp [results, Request.result?]
    · exact ((hwaits other).1 hwaiting).2.2 ((isConnected_iff hidle h peer).1 hconnected)
  · cases hrefusal : answer.refusal with
    | some cause =>
        refine .answered (.error (.transport cause)) hasked (hanswers ?_) fun other hwaiting => ?_
        · rw [handle_connect_of_refused hconnected hrefusal]
          simp [results, Request.result?]
        · obtain ⟨-, haccepted, -⟩ := (hwaits other).1 hwaiting
          rw [hrefusal] at haccepted
          cases haccepted
    | none =>
        refine .waiting answer.id hasked ?_ fun other => ?_
        · rw [results_requested_snoc, hresults, handle_connect_of_accepted hconnected hrefusal]
          rfl
        · rw [isConnected_iff hidle] at hconnected
          rw [hwaits other, and_iff_left ⟨hrefusal, hconnected⟩, eq_comm]

/-- Other inputs answer a request only when they decide its dial. -/
theorem Progress.other (hprogress : Progress w h reply) (hidle : w.Idle) (hlaw : Throughout Fresh h)
    (hi : i.asks? ≠ some reply) : Progress w (h ++ [i]) reply := by
  have hasked : Asked (h ++ [i]) reply ↔ Asked h reply := by
    rw [asked_snoc, or_iff_left hi]
  have hwaits (other : ConnectionId) : Undecided (h ++ [i]) other reply ↔
      Undecided h other reply ∧ ∀ result, i.outcome? ≠ some (other, result) := by
    rw [undecided_snoc, or_iff_right fun hdials => hi hdials.asks?]
  by_cases hdecided : ∃ id result, i.outcome? = some (id, result) ∧ Undecided h id reply
  case pos =>
    obtain ⟨id, result, houtcome, hundecided⟩ := hdecided
    have hgiven : results reply ((w.after h).handle i).2 = [result] := by
      rw [(handle_of_outcome houtcome _ reply).2]
      exact if_pos ((get?_pendingDials_iff hidle hlaw id reply).2 hundecided)
    cases hprogress with
    | unasked _ _ hnone => exact absurd hundecided (hnone id)
    | answered _ _ _ hnone => exact absurd hundecided (hnone id)
    | waiting waited hold hresults honly =>
        refine .answered result (hasked.2 hold) ?_ fun other hother => ?_
        · rw [results_requested_snoc, hresults, hgiven, List.nil_append]
        · obtain ⟨hstill, hkept⟩ := (hwaits other).1 hother
          have hsame : other = id := ((honly other).1 hstill).trans ((honly id).1 hundecided).symm
          exact hkept result (hsame ▸ houtcome)
  case neg =>
    have hsame (other : ConnectionId) :
        Undecided (h ++ [i]) other reply ↔ Undecided h other reply :=
      (hwaits other).trans (and_iff_left_of_imp fun hundecided result houtcome =>
        hdecided ⟨other, result, houtcome, hundecided⟩)
    have hgiven : results reply ((w.after h).handle i).2 = [] := by
      rw [List.eq_nil_iff_forall_not_mem]
      intro result hresult
      rw [mem_results_handle_iff hidle hlaw] at hresult
      rcases hresult.asks_or_decides with hasks | ⟨id, houtcome⟩
      · exact hi hasks
      · exact hdecided ⟨id, result, houtcome, ((answers_of_outcome_iff houtcome).1 hresult).1⟩
    have hresults : results reply (w.requested (h ++ [i])) = results reply (w.requested h) := by
      rw [results_requested_snoc, hgiven, List.append_nil]
    cases hprogress with
    | unasked hnew hempty hnone =>
        exact .unasked (mt hasked.1 hnew) (hresults.trans hempty) fun id =>
          mt (hsame id).1 (hnone id)
    | waiting id hold hempty honly =>
        exact .waiting id (hasked.2 hold) (hresults.trans hempty) fun other =>
          (hsame other).trans (honly other)
    | answered result hold hone hnone =>
        exact .answered result (hasked.2 hold) (hresults.trans hone) fun id =>
          mt (hsame id).1 (hnone id)

theorem progress (hidle : w.Idle) (hlaw : Throughout Fresh h) (reply : ReplyId) :
    Progress w h reply := by
  induction h using List.reverseRecOn with
  | nil => exact .unasked (not_happened_nil _) rfl fun _ => not_everSince_nil _ _
  | append_singleton h i ih =>
      obtain ⟨hbefore, hlast⟩ := throughout_snoc.1 hlaw
      by_cases hi : i.asks? = some reply
      · obtain ⟨answer, peer, addresses, rfl⟩ := Input.exists_connect hi
        exact (ih hbefore).ask hidle hlast
      · exact (ih hbefore).other hidle hbefore hi

/-- After every history of the task the pending dials are exactly the accepted ones that no report
has decided. A request gets one answer at most, and it is the one that says what happened: that the
peer was connected or the dial refused, or what a report said of this very dial. Whoever asked has
got an answer or waits for one dial that is not decided, and not both. -/
theorem answered_once (hidle : w.Idle) (hlaw : Throughout Fresh h) :
    (Keyed.keys (w.after h).pendingDials).Nodup ∧
      (∀ id reply, (id, reply) ∈ (w.after h).pendingDials ↔ Undecided h id reply) ∧
      ∀ reply,
        let given := results reply (w.requested h)
        given.length ≤ 1 ∧
        (∀ result, result ∈ given ↔ Happened (fun before i => Answers before i reply result) h) ∧
        (Asked h reply ↔ given ≠ [] ∨ ∃ id, Undecided h id reply) ∧
        ¬(given ≠ [] ∧ ∃ id, Undecided h id reply) ∧
        ∀ id other, Undecided h id reply → Undecided h other reply → id = other := by
  have hnodup := nodup_keys_pendingDials hidle h
  refine ⟨hnodup, fun id reply => ?_, fun reply => ?_⟩
  · rw [Keyed.mem_iff_get?_eq_some hnodup, get?_pendingDials_iff hidle hlaw]
  · have hexact (result : Except Failure Unit) : result ∈ results reply (w.requested h) ↔
        Happened (fun before i => Answers before i reply result) h := mem_results_iff hidle hlaw
    cases progress hidle hlaw reply with
    | unasked hnew hgiven hnone =>
        refine ⟨by simp [hgiven], hexact, ?_, ?_, fun id _ hid _ => absurd hid (hnone id)⟩
        · simp [hnew, hgiven, hnone]
        · simp [hgiven]
    | waiting id hasked hgiven honly =>
        refine ⟨by simp [hgiven], hexact, ?_, ?_, fun first second hfirst hsecond => ?_⟩
        · simp [hasked, honly]
        · simp [hgiven]
        · exact ((honly first).1 hfirst).trans ((honly second).1 hsecond).symm
    | answered result hasked hgiven hnone =>
        refine ⟨by simp [hgiven], hexact, ?_, ?_, fun id _ hid _ => absurd hid (hnone id)⟩
        · simp [hasked, hgiven]
        · simp [hnone]

theorem throughout_report (hlaw : Throughout Fresh h) (now : Millis) (meshPeers : List PeerId)
    (event : SwarmEvent) : Throughout Fresh (h ++ [.report now meshPeers event]) :=
  throughout_snoc.2 ⟨hlaw, nofun, fun _ _ hdials => absurd hdials (not_dials_of_none rfl)⟩

/-- A request is in order if its name is new and the id of its dial is not pending. -/
theorem throughout_connect (hidle : w.Idle) (hlaw : Throughout Fresh h) {answer : DialAnswer}
    {peer : PeerId} {addresses : List Multiaddr} (hnew : ¬∃ i ∈ h, i.asks? = some reply)
    (hid : Keyed.get? answer.id (w.after h).pendingDials = none) :
    Throughout Fresh (h ++ [.command answer (.connect peer addresses reply)]) := by
  refine throughout_snoc.2 ⟨hlaw, ?_, ?_⟩
  · rintro _ ⟨⟩
    exact mt happened_iff_exists_mem.1 hnew
  · intro id _ hdials other hundecided
    rw [dials_connect_iff] at hdials
    rw [← get?_pendingDials_iff hidle hlaw, ← hdials.2.1, hid] at hundecided
    cases hundecided

open ConnectionManager (peerOf)

/-- Two requests dial the same peer at the same time. The second dial makes it first, so a third
request is answered at once. The last request dials another peer. -/
def rivals : List Input :=
  [.command { id := 1 } (.connect (peerOf 1) [] 1), .command { id := 2 } (.connect (peerOf 1) [] 2),
    .report 5 [] (.established 2 (peerOf 1) none), .command { id := 3 } (.connect (peerOf 1) [] 3),
    .report 6 [] (.dialFailed 1 (some (peerOf 1)) .skipped),
    .command { id := 4 } (.connect (peerOf 2) [] 4)]

/-- Each request is told about its own dial, and only the last one waits. -/
theorem rivals_answered :
    Throughout Fresh rivals ∧
      (let w := newcomer (peerOf 0) 1 9
      (w.after rivals).pendingDials = [(4, 4)] ∧ Undecided rivals 4 4 ∧
        results 1 (w.requested rivals) = [.error (.transport .dial)] ∧
        results 2 (w.requested rivals) = [.ok ()] ∧ results 3 (w.requested rivals) = [.ok ()] ∧
        Happened (fun before i => Answers before i 3 (.ok ())) rivals) := by
  have hidle := idle_newcomer (peerOf 0) 1 9
  have hlaw : Throughout Fresh rivals := by
    change Throughout Fresh ([] ++ [_] ++ [_] ++ [_] ++ [_] ++ [_] ++ [_])
    refine throughout_connect hidle (throughout_report (throughout_connect hidle
      (throughout_report (throughout_connect hidle (throughout_connect hidle
        (throughout_nil _) ?_ rfl) ?_ rfl) _ _ _) ?_ rfl) _ _ _) ?_ rfl
    all_goals decide
  obtain ⟨-, hpending, hanswers⟩ := answered_once hidle hlaw
  refine ⟨hlaw, rfl, (hpending 4 4).1 ?_, rfl, rfl, rfl, ((hanswers 3).2.1 _).1 ?_⟩
  · exact List.mem_singleton.2 rfl
  · exact List.mem_singleton.2 rfl

end Worker

end GossipDirectory
