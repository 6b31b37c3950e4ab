import GossipDirectory.Onion.Transport
import Mathlib.Data.List.Induction

/-!
# The life of an onion listener

A transport listens at most once, on an address of its own hidden service. Requests to listen may be
refused any number of times before and after; they change nothing. Once the listener is removed,
nothing more is reported of it except that it is closed. The events of the transport therefore come
in one order: the new address, what came to the listener, and the end of the listener.

## Implementation notes

An event counts as soon as it is noted, so what was polled and what is noted are one list in which
nothing is ever changed but its end. What comes to the listener is not noted but taken when the
transport is polled.
-/

namespace GossipDirectory

/-- The event tells of something that came to a listener. -/
def TransportEvent.isArrival : TransportEvent → Bool
  | .incoming _ _ _ | .acceptFailed _ _ => true
  | .newAddress _ _ | .listenerClosed _ => false

namespace OnionTransport

/-- What a transport is asked to do, and what comes to its listener meanwhile. -/
inductive Call
  | listen (id : Nat) (address : Multiaddr)
  | remove (id : Nat)
  | poll
  | arrive (arrival : Arrival)
  deriving DecidableEq, Repr

/-- A transport with what became of the calls so far. -/
structure Life where
  transport : OnionTransport
  /-- The requests to listen that were granted. -/
  granted : List (Nat × Multiaddr) := []
  /-- The listeners that were removed. -/
  removed : List Nat := []
  polled : List TransportEvent := []
  arrived : List Arrival := []
  deriving DecidableEq, Repr

/-- One more call. -/
def Life.call (l : Life) : Call → Life
  | .listen id address =>
    match l.transport.listenOn id address with
    | (.ok (), transport) => { l with transport, granted := l.granted ++ [(id, address)] }
    | (.error _, transport) => { l with transport }
  | .remove id =>
    match l.transport.removeListener id with
    | (true, transport) => { l with transport, removed := l.removed ++ [id] }
    | (false, transport) => { l with transport }
  | .poll =>
    let (event, transport) := l.transport.poll
    { l with transport, polled := l.polled ++ event.toList }
  | .arrive arrival =>
    { l with transport := l.transport.arrive arrival, arrived := l.arrived ++ [arrival] }

/-- The life of the transport of a hidden service. -/
def life (service : HiddenService) (calls : List Call) : Life :=
  calls.foldl Life.call { transport := { service := some service } }

variable {t : OnionTransport} {l : Life} {service : HiddenService} {active : ActiveListener}
  {reported : List Arrival} {id : Nat} {address : Multiaddr}

/-! ## What a call does -/

/-- A request to listen on the address of the hidden service is granted. -/
theorem listenOn_of_own (hservice : t.service = some service)
    (hown : OnionEndpoint.ofMultiaddr address = .ok service.endpoint) (id : Nat) :
    t.listenOn id address =
      (.ok (),
        { service := none
          listener := some { id, address, waiting := service.waiting }
          localAddress := some address
          events := t.events ++ [.newAddress id address] }) := by
  simp only [listenOn, hown, hservice, if_true]

/-- Any other request to listen is refused, which changes nothing. -/
theorem listenOn_of_foreign
    (h : ∀ service, t.service = some service →
      OnionEndpoint.ofMultiaddr address ≠ .ok service.endpoint) (id : Nat) :
    ∃ refusal, t.listenOn id address = (.error refusal, t) := by
  unfold listenOn
  cases hread : OnionEndpoint.ofMultiaddr address with
  | error cause => exact ⟨_, rfl⟩
  | ok endpoint =>
      obtain ⟨held, listener, localAddress, events⟩ := t
      cases held with
      | none => exact ⟨_, rfl⟩
      | some service =>
          have hne : service.endpoint ≠ endpoint := by
            rintro rfl
            exact h service rfl hread
          dsimp only
          rw [if_neg hne]
          exact ⟨_, rfl⟩

theorem listenOn_error {refusal : TransportRefusal}
    (h : (t.listenOn id address).1 = .error refusal) : (t.listenOn id address).2 = t := by
  by_cases hown : ∃ service, t.service = some service ∧
      OnionEndpoint.ofMultiaddr address = .ok service.endpoint
  · obtain ⟨service, hservice, hown⟩ := hown
    rw [listenOn_of_own hservice hown] at h
    cases h
  · obtain ⟨_, heq⟩ := listenOn_of_foreign
      (fun service hservice hread => hown ⟨service, hservice, hread⟩) id
    rw [heq]

theorem call_listen_of_foreign
    (h : ∀ service, l.transport.service = some service →
      OnionEndpoint.ofMultiaddr address ≠ .ok service.endpoint) (id : Nat) :
    l.call (.listen id address) = l := by
  obtain ⟨refusal, heq⟩ := listenOn_of_foreign h id
  simp only [Life.call, heq]

theorem call_listen_of_none (h : l.transport.service = none) (id : Nat) (address : Multiaddr) :
    l.call (.listen id address) = l :=
  call_listen_of_foreign (fun _ heq => absurd (heq.symm.trans h) nofun) id

theorem call_remove_of_foreign
    (h : ∀ active, l.transport.listener = some active → active.id ≠ id) :
    l.call (.remove id) = l := by
  have heq : l.transport.removeListener id = (false, l.transport) := by
    unfold removeListener
    cases hlistener : l.transport.listener with
    | none => rfl
    | some active => exact if_neg (h active hlistener)
  simp only [Life.call, heq]

/-- Nothing comes to a listener that is gone. -/
theorem arrive_of_none (hservice : t.service = none) (hlistener : t.listener = none)
    (arrival : Arrival) : t.arrive arrival = t := by
  simp only [arrive, hlistener, hservice]

/-- What is noted is polled first. -/
theorem call_poll_of_noted {event : TransportEvent} {rest : List TransportEvent}
    (h : l.transport.events = event :: rest) :
    l.call .poll =
      { l with
        transport := { l.transport with events := rest }
        polled := l.polled ++ [event] } := by
  simp only [Life.call, poll, h, Option.toList_some]

theorem call_poll_of_idle (hevents : l.transport.events = [])
    (h : ∀ active, l.transport.listener = some active → active.waiting = []) :
    l.call .poll = l := by
  have heq : l.transport.poll = (none, l.transport) := by
    unfold poll
    cases hlistener : l.transport.listener with
    | none => simp only [hevents]
    | some active => simp only [hevents, h active hlistener]
  simp only [Life.call, heq, Option.toList_none, List.append_nil]

/-- Then what waits at the listener is taken. -/
theorem call_poll_of_waiting {arrival : Arrival} {rest : List Arrival}
    (hevents : l.transport.events = []) (hlistener : l.transport.listener = some active)
    (hwaiting : active.waiting = arrival :: rest) :
    l.call .poll =
      { l with
        transport := { l.transport with listener := some { active with waiting := rest } }
        polled := l.polled ++ [active.report arrival] } := by
  simp only [Life.call, poll, hevents, hlistener, hwaiting, Option.toList_some]

/-! ## The stages of a life -/

/-- A transport that has not listened yet. What has come waits at the hidden service. -/
structure Unbound (service : HiddenService) (l : Life) : Prop where
  transport_eq : l.transport =
    { service := some { service with waiting := service.waiting ++ l.arrived } }
  granted_eq : l.granted = []
  removed_eq : l.removed = []
  polled_eq : l.polled = []

/-- A transport that has begun to listen, with what it reported. -/
structure Bound (service : HiddenService) (l : Life) (active : ActiveListener)
    (reported : List Arrival) : Prop where
  own : OnionEndpoint.ofMultiaddr active.address = .ok service.endpoint
  granted_eq : l.granted = [(active.id, active.address)]
  service_eq : l.transport.service = none
  localAddress_eq : l.transport.localAddress = some active.address
  events_eq : l.polled ++ l.transport.events =
    .newAddress active.id active.address ::
      (reported.map active.report ++ l.removed.map .listenerClosed)
  /-- No arrival is noted. -/
  quiet : ∀ event ∈ l.transport.events, event.isArrival = false

/-- How far a transport has come. -/
inductive Stage (service : HiddenService) (l : Life) : Prop
  | unbound : Unbound service l → Stage service l
  | listening (active : ActiveListener) (reported : List Arrival) :
    Bound service l active reported → l.transport.listener = some active → l.removed = [] →
      service.waiting ++ l.arrived = reported ++ active.waiting → Stage service l
  | closed (active : ActiveListener) (reported : List Arrival) :
    Bound service l active reported → l.transport.listener = none → l.removed = [active.id] →
      reported <+: service.waiting ++ l.arrived → Stage service l

/-- The first request to listen on the address of the hidden service takes over what waits there. -/
theorem Unbound.call_listen (h : Unbound service l)
    (hown : OnionEndpoint.ofMultiaddr address = .ok service.endpoint) (id : Nat) :
    l.call (.listen id address) =
      { l with
        transport := {
          service := none
          listener := some { id, address, waiting := service.waiting ++ l.arrived }
          localAddress := some address
          events := [.newAddress id address] }
        granted := [(id, address)] } := by
  have hservice := congrArg OnionTransport.service h.transport_eq
  rw [Life.call, listenOn_of_own hservice hown id, h.granted_eq, h.transport_eq]
  rfl

theorem stage_listen (hl : Stage service l) (id : Nat) (address : Multiaddr) :
    Stage service (l.call (.listen id address)) := by
  cases hl with
  | unbound h =>
      by_cases hown : OnionEndpoint.ofMultiaddr address = .ok service.endpoint
      · rw [h.call_listen hown]
        refine .listening { id, address, waiting := service.waiting ++ l.arrived } []
          ⟨hown, rfl, rfl, rfl, ?events, ?quiet⟩ rfl h.removed_eq rfl
        case events => rw [h.polled_eq, h.removed_eq]; rfl
        case quiet => simp [TransportEvent.isArrival]
      · have hservice := congrArg OnionTransport.service h.transport_eq
        rw [call_listen_of_foreign fun _ hheld =>
          Option.some.inj (hservice.symm.trans hheld) ▸ hown]
        exact .unbound h
  | listening active reported hbound hlistener hremoved harrived =>
      rw [call_listen_of_none hbound.service_eq]
      exact .listening active reported hbound hlistener hremoved harrived
  | closed active reported hbound hlistener hremoved harrived =>
      rw [call_listen_of_none hbound.service_eq]
      exact .closed active reported hbound hlistener hremoved harrived

theorem stage_remove (hl : Stage service l) (id : Nat) : Stage service (l.call (.remove id)) := by
  cases hl with
  | unbound h =>
      rw [call_remove_of_foreign]
      · exact .unbound h
      · rw [h.transport_eq]
        nofun
  | listening active reported hbound hlistener hremoved harrived =>
      by_cases hid : active.id = id
      · subst hid
        have hanswer : l.transport.removeListener active.id = (true,
            { l.transport with
              listener := none
              events := l.transport.events ++ [.listenerClosed active.id] }) := by
          simp only [removeListener, hlistener, if_true]
        simp only [Life.call, hanswer]
        refine .closed active reported ⟨hbound.own, hbound.granted_eq, hbound.service_eq,
          hbound.localAddress_eq, ?events, ?quiet⟩ rfl (by rw [hremoved]; rfl)
          ⟨active.waiting, harrived.symm⟩
        case events =>
          rw [← List.append_assoc, hbound.events_eq, List.map_append, ← List.append_assoc]
          rfl
        case quiet =>
          intro event hmem
          rcases List.mem_append.1 hmem with hmem | hmem
          · exact hbound.quiet event hmem
          · rw [List.mem_singleton.1 hmem]
            rfl
      · rw [call_remove_of_foreign]
        · exact .listening active reported hbound hlistener hremoved harrived
        · rw [hlistener]
          rintro _ ⟨⟩
          exact hid
  | closed active reported hbound hlistener hremoved harrived =>
      rw [call_remove_of_foreign]
      · exact .closed active reported hbound hlistener hremoved harrived
      · rw [hlistener]
        nofun

/-- What an arrival is reported as does not depend on what else waits. -/
theorem report_waiting (active : ActiveListener) (waiting : List Arrival) :
    ActiveListener.report { active with waiting } = active.report := by
  funext arrival
  cases arrival with
  | connection ip port => rfl
  | failure cause => rfl

/-- To poll what is noted moves it from the noted events to the polled ones. -/
theorem Bound.poll_of_noted (h : Bound service l active reported) {event : TransportEvent}
    {rest : List TransportEvent} (hevents : l.transport.events = event :: rest) :
    Bound service (l.call .poll) active reported := by
  rw [call_poll_of_noted hevents]
  refine ⟨h.own, h.granted_eq, h.service_eq, h.localAddress_eq, ?events, ?quiet⟩
  case events =>
    rw [← h.events_eq, hevents, List.append_assoc]
    rfl
  case quiet =>
    intro later hmem
    exact h.quiet later (hevents ▸ List.mem_cons_of_mem event hmem)

theorem stage_poll (hl : Stage service l) : Stage service (l.call .poll) := by
  cases hl with
  | unbound h =>
      rw [call_poll_of_idle]
      · exact .unbound h
      · rw [h.transport_eq]
      · rw [h.transport_eq]
        nofun
  | listening active reported hbound hlistener hremoved harrived =>
      cases hevents : l.transport.events with
      | cons event rest =>
          have hpolled := hbound.poll_of_noted hevents
          rw [call_poll_of_noted hevents] at hpolled ⊢
          exact .listening active reported hpolled hlistener hremoved harrived
      | nil =>
          cases hwaiting : active.waiting with
          | nil =>
              rw [call_poll_of_idle hevents]
              · exact .listening active reported hbound hlistener hremoved harrived
              · rw [hlistener]
                rintro _ ⟨⟩
                exact hwaiting
          -- Only now something is taken from the listener, so it follows all that was reported.
          | cons arrival rest =>
              rw [call_poll_of_waiting hevents hlistener hwaiting]
              refine .listening { active with waiting := rest } (reported ++ [arrival])
                ⟨hbound.own, hbound.granted_eq, hbound.service_eq, hbound.localAddress_eq,
                  ?events, hbound.quiet⟩ rfl hremoved ?arrived
              case events =>
                have hsofar : l.polled =
                    .newAddress active.id active.address :: reported.map active.report := by
                  simpa [hevents, hremoved] using hbound.events_eq
                dsimp only
                rw [hevents, hremoved, report_waiting active rest, hsofar]
                simp
              case arrived => rw [harrived, hwaiting, List.append_assoc]; rfl
  | closed active reported hbound hlistener hremoved harrived =>
      cases hevents : l.transport.events with
      | cons event rest =>
          have hpolled := hbound.poll_of_noted hevents
          rw [call_poll_of_noted hevents] at hpolled ⊢
          exact .closed active reported hpolled hlistener hremoved harrived
      | nil =>
          rw [call_poll_of_idle hevents]
          · exact .closed active reported hbound hlistener hremoved harrived
          · rw [hlistener]
            nofun

theorem stage_arrive (hl : Stage service l) (arrival : Arrival) :
    Stage service (l.call (.arrive arrival)) := by
  cases hl with
  | unbound h =>
      refine .unbound ⟨?_, h.granted_eq, h.removed_eq, h.polled_eq⟩
      simp only [Life.call, h.transport_eq, arrive, List.append_assoc]
  | listening active reported hbound hlistener hremoved harrived =>
      have harrive : l.transport.arrive arrival =
          { l.transport with
            listener := some { active with waiting := active.waiting ++ [arrival] } } := by
        simp only [arrive, hlistener]
      simp only [Life.call, harrive]
      refine .listening { active with waiting := active.waiting ++ [arrival] } reported
        ⟨hbound.own, hbound.granted_eq, hbound.service_eq, hbound.localAddress_eq, ?events,
          hbound.quiet⟩ rfl hremoved ?arrived
      case events => rw [report_waiting]; exact hbound.events_eq
      case arrived =>
        dsimp only
        rw [← List.append_assoc, harrived, List.append_assoc]
  | closed active reported hbound hlistener hremoved harrived =>
      have harrive := arrive_of_none hbound.service_eq hlistener arrival
      simp only [Life.call, harrive]
      refine .closed active reported ⟨hbound.own, hbound.granted_eq, hbound.service_eq,
        hbound.localAddress_eq, hbound.events_eq, hbound.quiet⟩ hlistener hremoved ?_
      dsimp only
      rw [← List.append_assoc]
      exact harrived.trans (List.prefix_append _ _)

/-! ## A whole life -/

theorem life_append (service : HiddenService) (calls more : List Call) :
    life service (calls ++ more) = more.foldl Life.call (life service calls) :=
  List.foldl_append

theorem stage_life (service : HiddenService) (calls : List Call) :
    Stage service (life service calls) := by
  induction calls using List.reverseRecOn with
  | nil => exact .unbound ⟨by rw [life, List.foldl_nil, List.append_nil], rfl, rfl, rfl⟩
  | append_singleton calls c ih =>
      rw [life_append]
      cases c with
      | listen id address => exact stage_listen ih id address
      | remove id => exact stage_remove ih id
      | poll => exact stage_poll ih
      | arrive arrival => exact stage_arrive ih arrival

/-- Everything that is noted comes to be polled. -/
theorem poll_noted (l : Life) :
    (List.replicate l.transport.events.length .poll).foldl Life.call l =
      { l with
        transport := { l.transport with events := [] }
        polled := l.polled ++ l.transport.events } := by
  obtain ⟨⟨held, listener, localAddress, events⟩, granted, removed, polled, arrived⟩ := l
  induction events generalizing polled with
  | nil => simp
  | cons event rest ih =>
      rw [List.length_cons, List.replicate_succ, List.foldl_cons, call_poll_of_noted rfl]
      refine (ih (polled ++ [event])).trans ?_
      rw [List.append_assoc]
      rfl

/-- Everything that waits at a listener comes to be polled. -/
theorem poll_waiting (l : Life) (hevents : l.transport.events = [])
    (hlistener : l.transport.listener = some active) :
    ((List.replicate active.waiting.length .poll).foldl Life.call l).polled =
      l.polled ++ active.waiting.map active.report := by
  obtain ⟨id, address, waiting⟩ := active
  induction waiting generalizing l with
  | nil => exact (List.append_nil _).symm
  | cons arrival rest ih =>
      rw [List.length_cons, List.replicate_succ, List.foldl_cons,
        call_poll_of_waiting hevents hlistener rfl]
      rw [ih]
      · rw [report_waiting ⟨id, address, arrival :: rest⟩ rest, List.append_assoc]
        rfl
      · exact hevents
      · rfl

/-- All that has come to a listener in use comes to be polled. -/
theorem Bound.poll_all (h : Bound service l active reported)
    (hlistener : l.transport.listener = some active) (hremoved : l.removed = [])
    (harrived : service.waiting ++ l.arrived = reported ++ active.waiting) :
    ∃ n, ((List.replicate n .poll).foldl Life.call l).polled =
      .newAddress active.id active.address ::
        (service.waiting ++ l.arrived).map active.report := by
  refine ⟨l.transport.events.length + active.waiting.length, ?_⟩
  calc _ = (l.polled ++ l.transport.events) ++ active.waiting.map active.report := by
        rw [← List.replicate_append_replicate, List.foldl_append, poll_noted]
        exact poll_waiting _ rfl hlistener
    _ = (.newAddress active.id active.address :: reported.map active.report) ++
          active.waiting.map active.report := by
        rw [h.events_eq, hremoved, List.map_nil, List.append_nil]
    _ = _ := by rw [harrived, List.map_append, List.cons_append]

/-- A connection that came to the listener, and nothing else, is reported as incoming, at the
address of the listener. -/
theorem incoming_mem_events_iff (active : ActiveListener) (reported : List Arrival)
    (removed : List Nat) (id : Nat) (address remote : Multiaddr) :
    .incoming id address remote ∈ .newAddress active.id active.address ::
        (reported.map active.report ++ removed.map .listenerClosed) ↔
      id = active.id ∧ address = active.address ∧
        ∃ ip port, .connection ip port ∈ reported ∧ remote = .ofHost ip port := by
  have hreport : ∀ arrival, active.report arrival = .incoming id address remote ↔
      id = active.id ∧ address = active.address ∧
        ∃ ip port, arrival = .connection ip port ∧ remote = .ofHost ip port := by
    intro arrival
    cases arrival with
    | connection ip port => simp [ActiveListener.report, eq_comm]
    | failure cause => simp [ActiveListener.report]
  simp only [List.mem_cons, List.mem_append, List.mem_map, hreport, reduceCtorEq, false_or,
    and_false, exists_const, or_false]
  constructor
  · rintro ⟨arrival, hmem, hid, haddress, ip, port, rfl, hremote⟩
    exact ⟨hid, haddress, ip, port, hmem, hremote⟩
  · rintro ⟨hid, haddress, ip, port, hmem, hremote⟩
    exact ⟨_, hmem, hid, haddress, ip, port, rfl, hremote⟩

/-- A transport that is done with listening. -/
structure Ended (l : Life) : Prop where
  service_eq : l.transport.service = none
  listener_eq : l.transport.listener = none

/-- Afterwards, nothing but what was noted is polled. -/
theorem Ended.call (h : Ended l) (c : Call) :
    Ended (l.call c) ∧ ∃ now, (l.call c).polled = l.polled ++ now ∧
      l.transport.events = now ++ (l.call c).transport.events := by
  -- Only polling what is noted and an arrival, which is merely counted, change anything.
  have hsame : l.call c = l → Ended (l.call c) ∧ ∃ now, (l.call c).polled = l.polled ++ now ∧
      l.transport.events = now ++ (l.call c).transport.events := by
    intro heq
    rw [heq]
    exact ⟨h, [], (List.append_nil _).symm, rfl⟩
  cases c with
  | listen id address => exact hsame (call_listen_of_none h.service_eq id address)
  | remove id =>
      exact hsame (call_remove_of_foreign fun _ heq => absurd (heq.symm.trans h.listener_eq) nofun)
  | poll =>
      cases hevents : l.transport.events with
      | nil =>
          rw [← hevents]
          exact hsame (call_poll_of_idle hevents
            fun _ heq => absurd (heq.symm.trans h.listener_eq) nofun)
      | cons event rest =>
          rw [call_poll_of_noted hevents]
          exact ⟨⟨h.service_eq, h.listener_eq⟩, [event], rfl, rfl⟩
  | arrive arrival =>
      have harrive := arrive_of_none h.service_eq h.listener_eq arrival
      simp only [Life.call, harrive]
      exact ⟨⟨h.service_eq, h.listener_eq⟩, [], (List.append_nil _).symm, rfl⟩

theorem Ended.calls (h : Ended l) (more : List Call) :
    ∃ later, (more.foldl Life.call l).polled = l.polled ++ later ∧
      later <+: l.transport.events := by
  induction more generalizing l with
  | nil => exact ⟨[], (List.append_nil _).symm, List.nil_prefix⟩
  | cons c more ih =>
      obtain ⟨hended, now, hnow, hevents⟩ := h.call c
      obtain ⟨later, hlater, hfirst⟩ := ih hended
      refine ⟨now ++ later, ?_, ?_⟩
      · rw [List.foldl_cons, hlater, hnow, List.append_assoc]
      · rw [hevents]
        exact (List.prefix_append_right_inj now).2 hfirst

/-- A request to listen is granted exactly if none was granted before and the address is one of the
hidden service. -/
theorem Stage.listenOn_iff (hl : Stage service l) (id : Nat) (address : Multiaddr) :
    (l.transport.listenOn id address).1 = .ok () ↔
      l.granted = [] ∧ OnionEndpoint.ofMultiaddr address = .ok service.endpoint := by
  have hbound : ∀ {active reported}, Bound service l active reported →
      ((l.transport.listenOn id address).1 = .ok () ↔
        l.granted = [] ∧ OnionEndpoint.ofMultiaddr address = .ok service.endpoint) := by
    intro active reported h
    have hrefused : ∃ refusal, l.transport.listenOn id address = (.error refusal, l.transport) :=
      listenOn_of_foreign (fun _ heq => absurd (heq.symm.trans h.service_eq) nofun) id
    obtain ⟨refusal, heq⟩ := hrefused
    rw [heq, h.granted_eq]
    simp
  cases hl with
  | unbound h =>
      have hservice := congrArg OnionTransport.service h.transport_eq
      by_cases hown : OnionEndpoint.ofMultiaddr address = .ok service.endpoint
      · rw [listenOn_of_own hservice hown]
        simp [h.granted_eq, hown]
      · have hrefused : ∃ refusal,
            l.transport.listenOn id address = (.error refusal, l.transport) :=
          listenOn_of_foreign (fun _ hheld => Option.some.inj (hservice.symm.trans hheld) ▸ hown) id
        obtain ⟨refusal, heq⟩ := hrefused
        rw [heq]
        simp [hown]
  | listening active reported h hlistener hremoved harrived => exact hbound h
  | closed active reported h hlistener hremoved harrived => exact hbound h

/-- The listener that was granted and not removed is the one that can be removed. -/
theorem Stage.removeListener_iff (hl : Stage service l) (id : Nat) :
    (l.transport.removeListener id).1 = true ↔
      l.removed = [] ∧ ∃ address, l.granted = [(id, address)] := by
  cases hl with
  | unbound h =>
      rw [h.transport_eq, h.granted_eq]
      simp [removeListener]
  | listening active reported h hlistener hremoved harrived =>
      rw [h.granted_eq, hremoved, removeListener, hlistener]
      by_cases hid : active.id = id
      · simp [hid]
      · simp [hid]
  | closed active reported h hlistener hremoved harrived =>
      rw [hremoved, removeListener, hlistener]
      simp

/-- At any moment of its life, a transport grants a request to listen exactly if it has granted none
and the address is one of its hidden service; a refusal changes nothing. It removes exactly the
listener that it has granted and not removed. Its events are the new address, then what came to the
listener in the order in which it came, connections as incoming at the address of the listener, then
the end of the listener. All events that are noted come to be polled, and so does all that comes
before the removal if polling goes on; after the removal, no arrival is polled any more. -/
theorem events_of_life (service : HiddenService) (calls : List Call) :
    let l := life service calls
    (∀ id address, (l.transport.listenOn id address).1 = .ok () ↔
      l.granted = [] ∧ OnionEndpoint.ofMultiaddr address = .ok service.endpoint) ∧
    (∀ id address refusal, (l.transport.listenOn id address).1 = .error refusal →
      (l.transport.listenOn id address).2 = l.transport) ∧
    (∀ id, (l.transport.removeListener id).1 = true ↔
      l.removed = [] ∧ ∃ address, l.granted = [(id, address)]) ∧
    (l.granted = [] ∧ l.removed = [] ∧ l.transport.localAddress = none ∧
        l.polled ++ l.transport.events = [] ∨
      ∃ (active : ActiveListener) (reported : List Arrival),
        OnionEndpoint.ofMultiaddr active.address = .ok service.endpoint ∧
        l.granted = [(active.id, active.address)] ∧
        (l.removed = [] ∨ l.removed = [active.id]) ∧
        l.transport.localAddress = some active.address ∧
        reported <+: service.waiting ++ l.arrived ∧
        l.polled ++ l.transport.events =
          .newAddress active.id active.address ::
            (reported.map active.report ++ l.removed.map .listenerClosed) ∧
        (∀ id address remote, .incoming id address remote ∈ l.polled ++ l.transport.events ↔
          id = active.id ∧ address = active.address ∧
            ∃ ip port, .connection ip port ∈ reported ∧ remote = .ofHost ip port) ∧
        (l.removed = [] → ∃ n, (life service (calls ++ List.replicate n .poll)).polled =
          .newAddress active.id active.address ::
            (service.waiting ++ l.arrived).map active.report)) ∧
    (life service (calls ++ List.replicate l.transport.events.length .poll)).polled =
      l.polled ++ l.transport.events ∧
    (l.removed ≠ [] → ∀ more, ∃ later, (life service (calls ++ more)).polled = l.polled ++ later ∧
      ∀ event ∈ later, event.isArrival = false) := by
  intro l
  have hstage : Stage service l := stage_life service calls
  refine ⟨hstage.listenOn_iff, fun _ _ _ => listenOn_error, hstage.removeListener_iff,
    ?events, by rw [life_append, poll_noted], fun hremoved more => ?ended⟩
  case events =>
    cases hstage with
    | unbound h =>
        refine .inl ⟨h.granted_eq, h.removed_eq, ?_, ?_⟩
        · rw [h.transport_eq]
        · rw [h.transport_eq, h.polled_eq]
          rfl
    | listening active reported h hlistener hremoved harrived =>
        refine .inr ⟨active, reported, h.own, h.granted_eq, .inl hremoved, h.localAddress_eq,
          ⟨active.waiting, harrived.symm⟩, h.events_eq, fun _ _ _ => ?_, fun _ => ?_⟩
        · rw [h.events_eq]
          exact incoming_mem_events_iff ..
        · obtain ⟨n, hpolled⟩ := h.poll_all hlistener hremoved harrived
          exact ⟨n, by rw [life_append, hpolled]⟩
    | closed active reported h hlistener hremoved harrived =>
        refine .inr ⟨active, reported, h.own, h.granted_eq, .inr hremoved, h.localAddress_eq,
          harrived, h.events_eq, fun _ _ _ => ?_, fun hnone => ?_⟩
        · rw [h.events_eq]
          exact incoming_mem_events_iff ..
        · rw [hremoved] at hnone
          cases hnone
  case ended =>
    cases hstage with
    | unbound h => exact absurd h.removed_eq hremoved
    | listening active reported h hlistener hnone harrived => exact absurd hnone hremoved
    | closed active reported h hlistener hone harrived =>
        have hended : Ended l := ⟨h.service_eq, hlistener⟩
        obtain ⟨later, hlater, hfirst⟩ := hended.calls more
        rw [life_append]
        exact ⟨later, hlater, fun event hmem => h.quiet event (hfirst.subset hmem)⟩

/-- A connection comes early, the first port is wrong, and one more connection is too late to be
polled. -/
example :
    let own : Multiaddr := [.onion3 [7, 7, 7, 7, 7] 1042]
    let early : Arrival := .connection (.v4 Ipv4.loopback) 50000
    let late : Arrival := .connection (.v4 Ipv4.loopback) 50001
    (life { endpoint := { serviceId := "a4dqobyh", port := 1042 } }
      [.arrive early, .listen 1 [.onion3 [7, 7, 7, 7, 7] 2002], .listen 2 own, .listen 3 own, .poll,
        .remove 1, .poll, .arrive late, .remove 2, .poll, .poll]).polled =
      [.newAddress 2 own, .incoming 2 own [.ip4 Ipv4.loopback, .port .tcp 50000],
        .listenerClosed 2] := by
  decide +kernel

end OnionTransport

end GossipDirectory
