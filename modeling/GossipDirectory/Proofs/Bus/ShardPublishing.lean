import GossipDirectory.Proofs.Bus.CallRecord
import GossipDirectory.Proofs.Bus.RelaySteps
import GossipDirectory.Proofs.Collection.Runs
import GossipDirectory.Proofs.Text.Encoding

/-!
# Publishing through a shard

A shard that has announced itself receives everything that others publish for all shards, in order
and each once: it took a first part, and the rest waits in its subscription. Of what it took, it
hands the envelopes to its publisher, byte for byte, and skips the rest. What it forwards itself
does not come back.

## Implementation notes

The relay runs between its mesh, its network and the other users of the bus, who do what they like
with subscriptions of their own. What the network took is noted beside the relay.
-/

namespace GossipDirectory

namespace ChildRelay

/-- The relay with the commands that its network took so far. -/
structure Exchange where
  relay : State
  absorbed : List Command := []

/-- What can happen to the relay. -/
inductive Event
  | relay (a : Action)
  /-- The mesh delivers an envelope. -/
  | deliver (m : Message)
  /-- The mesh is gone. -/
  | closeMesh
  /-- The network takes a command. -/
  | absorb
  /-- The network is gone. -/
  | closeNetwork
  /-- Somebody else publishes. -/
  | publish (subject : String) (data : Bytes)
  /-- Somebody else subscribes. -/
  | subscribe (subject : String)
  /-- Somebody else takes what waits in a subscription. -/
  | read (id : Nat)
  /-- Somebody else gives a subscription up. -/
  | leave (id : Nat)
  /-- The relay is told to stop. -/
  | cancel
  deriving DecidableEq

/-! ## What others published -/

/-- What others published under a subject. -/
def offers (subject : String) (events : List Event) : List Bytes :=
  events.filterMap fun
    | .publish s data => if s = subject then some data else none
    | _ => none

theorem offers_append (subject : String) (events more : List Event) :
    offers subject (events ++ more) = offers subject events ++ offers subject more :=
  List.filterMap_append

/-! ## What a step does with the bytes from the parent -/

/-- The bytes are a text and hold an envelope. -/
def legible (data : Bytes) : Bool :=
  (Utf8.decode? data).isSome && (Message.ofBytes data).toOption.isSome

theorem legible_of_envelopeText? {data : Bytes} {text : String}
    (h : envelopeText? data = some text) : legible data = true ∧ Utf8.encode text = data := by
  obtain ⟨decoded, hdecoded, hrest⟩ := Option.bind_eq_some_iff.1 h
  cases hm : Message.ofBytes data with
  | ok m =>
      rw [hm] at hrest
      cases hrest
      exact ⟨by simp [legible, hdecoded, hm, Except.toOption], Utf8.encode_of_decode? hdecoded⟩
  | error e =>
      rw [hm] at hrest
      cases hrest

theorem not_legible_of_envelopeText? {data : Bytes} (h : envelopeText? data = none) :
    legible data = false := by
  cases hdecoded : Utf8.decode? data with
  | none => simp [legible, hdecoded]
  | some text =>
      cases hm : Message.ofBytes data with
      | ok m => simp [envelopeText?, hdecoded, hm] at h
      | error e => simp [legible, hm, Except.toOption]

/-- No envelope is empty. -/
theorem ne_empty_of_legible {text : String} (h : legible (Utf8.encode text) = true) :
    text ≠ "" := by
  rintro rfl
  exact absurd h (by decide)

/-- The bytes that wait for room among the network's commands. -/
def Stage.pending : Stage → List Bytes
  | .publishing _ data => [data]
  | _ => []

namespace Steps

variable {s t : State} {a : Action} {id : Nat} {queue : List Bytes}

/-- Only a relay that starts to subscribe reads from no subscription and goes on. -/
theorem eq_subscribe (h : Steps s a t) (hid : s.stage.subscription? = none) : a = .subscribe := by
  cases h with
  | subscribe hstage => rfl
  | _ => simp [Stage.subscription?, *] at hid

theorem stage_ne_subscribing (h : Steps s a t) : t.stage ≠ .subscribing := by
  cases h with
  | take id data text stage hstage hread htext hnext =>
      rcases hnext with rfl | rfl
      · exact Stage.noConfusion
      · exact Stage.noConfusion
  | _ => simp [State.finish, *]

/-- What the relay took and what waits for it stays the same from the front to the back; what it
publishes itself does not get between. -/
theorem taken_append_queue (h : Steps s a t) (hb : s.bus.Sound)
    (hid : s.stage.subscription? = some id) (hl : s.bus.Listens id s.subjects.children queue)
    (hparent : s.subjects.parent ≠ s.subjects.children)
    (hready : s.subjects.ready ≠ s.subjects.children) :
    ∃ queue', t.taken ++ queue' = s.taken ++ queue ∧
      ∀ id', t.stage.subscription? = some id' →
        id' = id ∧ t.bus.Listens id s.subjects.children queue' := by
  have hadvanced {data : Bytes} (hstage : s.stage = .serving id)
      (hread : s.bus.reading id = .data data) :
      ∃ rest, queue = data :: rest ∧
        (s.bus.advance id).Listens id s.subjects.children rest := by
    obtain ⟨rest, rfl⟩ := hl.eq_cons_of_reading hread
    exact ⟨rest, rfl, hl.advance_self⟩
  cases h with
  | subscribe hstage => simp [hstage, Stage.subscription?] at hid
  | announce id₀ hstage =>
      refine ⟨queue, rfl, fun id' hid' => ⟨?_, hl.publish_of_ne hb hready _⟩⟩
      rw [hstage] at hid
      exact Option.some.inj (hid'.symm.trans hid)
  | stop id₀ hstage hc => exact ⟨queue, rfl, fun id' hid' => by cases hid'⟩
  | forward id₀ m inbox hstage hreceive =>
      exact ⟨queue, rfl, fun id' hid' =>
        ⟨Option.some.inj (hid'.symm.trans hid), hl.publish_of_ne hb hparent _⟩⟩
  | skip id₀ data hstage hread htext =>
      obtain rfl : id₀ = id := by
        rw [hstage] at hid
        exact Option.some.inj hid
      obtain ⟨rest, rfl, hrest⟩ := hadvanced hstage hread
      refine ⟨rest, by rw [List.append_assoc]; rfl, fun id' hid' => ⟨?_, hrest⟩⟩
      exact Option.some.inj (hid'.symm.trans hid)
  | take id₀ data text stage hstage hread htext hnext =>
      obtain rfl : id₀ = id := by
        rw [hstage] at hid
        exact Option.some.inj hid
      obtain ⟨rest, rfl, hrest⟩ := hadvanced hstage hread
      refine ⟨rest, by rw [List.append_assoc]; rfl, fun id' hid' => ⟨?_, hrest⟩⟩
      rcases hnext with rfl | rfl
      · exact (Option.some.inj hid').symm
      · exact (Option.some.inj hid').symm
  | handOver id₀ data outbox hstage hsend =>
      refine ⟨queue, rfl, fun id' hid' => ⟨?_, hl⟩⟩
      rw [hstage] at hid
      exact Option.some.inj (hid'.symm.trans hid)
  | discard id₀ data hstage hheard =>
      refine ⟨queue, rfl, fun id' hid' => ⟨?_, hl⟩⟩
      rw [hstage] at hid
      exact Option.some.inj (hid'.symm.trans hid)

/-- The texts that the relay hands over are the envelopes among what it took. -/
theorem handed (h : Steps s a t) (hs : s.handed.map Utf8.encode = s.taken.filter legible) :
    t.handed.map Utf8.encode = t.taken.filter legible := by
  cases h with
  | skip id data hstage hread htext =>
      simpa [List.filter_append, not_legible_of_envelopeText? htext] using hs
  | take id data text stage hstage hread htext hnext =>
      obtain ⟨hlegible, hencoded⟩ := legible_of_envelopeText? htext
      simpa [List.filter_append, hlegible, hencoded] using hs
  | _ => exact hs

end Steps

/-- A relay next to a node that has joined its room waits with every envelope that it takes. -/
theorem step_take_of_connected {s : State} {id : Nat} {data : Bytes} {text : String}
    (hc : s.publisher.connected = true) (hstage : s.stage = .serving id)
    (hread : s.bus.reading id = .data data) (htext : envelopeText? data = some text) :
    step s .take = some
      { s with
        bus := s.bus.advance id
        taken := s.taken ++ [data]
        handed := s.handed ++ [text]
        stage := .publishing id data } := by
  obtain ⟨hlegible, hencoded⟩ := legible_of_envelopeText? htext
  have hwanted : text ≠ "" := ne_empty_of_legible (hencoded ▸ hlegible)
  simp [step, hstage, hread, htext, State.publishText, Publisher.publish, hwanted, hc, hencoded]

/-- A relay that serves takes what waits for it, and goes on; what is no envelope changes nothing
else. -/
theorem exists_take {s : State} {id : Nat} {data : Bytes} (hstage : s.stage = .serving id)
    (hread : s.bus.reading id = .data data) :
    ∃ t, step s .take = some t ∧ t.result? = none ∧ t.taken = s.taken ++ [data] ∧
      (legible data = false →
        t = { s with bus := s.bus.advance id, taken := s.taken ++ [data] }) := by
  cases htext : envelopeText? data with
  | none =>
      refine ⟨_, by simp only [step, hstage, hread, htext], ?_, rfl, fun _ => rfl⟩
      simp [State.result?, hstage]
  | some text =>
      obtain ⟨stage, heq, hnext⟩ := publishText_eq
        { s with bus := s.bus.advance id, taken := s.taken ++ [data] } id text
      rw [hstage] at heq hnext
      have hstep : step s .take = some
          { s with
            bus := s.bus.advance id, taken := s.taken ++ [data], handed := s.handed ++ [text]
            stage } := by
        simp only [step, hstage, hread, htext]
        exact congrArg some heq
      refine ⟨_, hstep, ?_, rfl, fun hillegible => ?_⟩
      · rcases hnext with rfl | rfl
        · rfl
        · rfl
      · rw [(legible_of_envelopeText? htext).1] at hillegible
        cases hillegible

namespace Exchange

/-- The exchange after somebody else used the bus. -/
def withBus (x : Exchange) (bus : Bus) : Exchange :=
  { x with relay := { x.relay with bus } }

/-- One step of the relay or of its neighbours. -/
def step (x : Exchange) : Event → Option Exchange
  | .relay a => (ChildRelay.step x.relay a).map fun relay => { x with relay }
  | .deliver m =>
    (x.relay.inbox.send? m).map fun inbox => { x with relay := { x.relay with inbox } }
  | .closeMesh => some { x with relay := { x.relay with inbox := x.relay.inbox.closeInput } }
  | .absorb =>
    (x.relay.outbox.receive?).map fun (c, outbox) =>
      { x with relay := { x.relay with outbox }, absorbed := x.absorbed ++ [c] }
  | .closeNetwork => some { x with relay := { x.relay with outbox := x.relay.outbox.closeOutput } }
  | .publish subject data => some (x.withBus (x.relay.bus.publish subject data).2)
  | .subscribe subject => some (x.withBus (x.relay.bus.subscribe subject).2)
  | .read id =>
    if x.relay.stage.subscription? = some id then none
    else some (x.withBus (x.relay.bus.advance id))
  | .leave id =>
    if x.relay.stage.subscription? = some id then none
    else some (x.withBus (x.relay.bus.leave id))
  | .cancel => some { x with relay := { x.relay with cancelled := true } }

/-- A relay below a base subject that starts on a bus which is in use already. -/
def launch (base : String) (childId : UInt32) (publisher : Publisher) (bus : Bus)
    (inboxSize outboxSize : Nat) : Exchange where
  relay :=
    { subjects := .below base, childId, publisher, bus
      inbox := { capacity := inboxSize }, outbox := { capacity := outboxSize } }

/-! ## What holds at every moment -/

/-- What a relay below a base subject received and handed over, and why it returned. -/
structure Exact (base : String) (events : List Event) (x : Exchange) : Prop where
  named : x.relay.subjects = .below base
  sound : x.relay.bus.Sound
  /-- Its subscription holds what others published since then and it has not taken yet. -/
  received : ∀ id, x.relay.stage.subscription? = some id → .relay .subscribe ∈ events ∧
    ∃ queue, x.relay.bus.Listens id (Subjects.below base).children queue ∧
      x.relay.taken ++ queue =
        offers (Subjects.below base).children (since (.relay .subscribe) events)
  taken : x.relay.taken <+: offers (Subjects.below base).children (since (.relay .subscribe) events)
  unsubscribed : x.relay.stage = .subscribing → .relay .subscribe ∉ events
  /-- It announces itself only after it has subscribed. -/
  announced : .relay .announce ∈ events →
    .relay .subscribe ∈ events ∧
      since (.relay .announce) events <:+ since (.relay .subscribe) events
  handed : x.relay.handed.map Utf8.encode = x.relay.taken.filter legible
  cancelled : x.relay.cancelled = true → .cancel ∈ events
  ended : ∀ r, x.relay.result? = some r → r = .ok () ∧ .cancel ∈ events

/-- As long as there is a network, what the relay handed over in a room is what the network took,
what waits for it and what waits for room. -/
def Linked (events : List Event) (x : Exchange) : Prop :=
  .closeNetwork ∉ events → x.relay.outbox.heard = true ∧
    (x.relay.publisher.connected = true →
      x.absorbed ++ x.relay.outbox.items ++ x.relay.stage.pending.map .publish =
        x.relay.handed.map fun text => .publish (Utf8.encode text))

section Preservation

variable {base : String} {events : List Event} {x y : Exchange} {e : Event}

theorem exact_launch (base : String) (childId : UInt32) (publisher : Publisher) {bus : Bus}
    (hb : bus.Sound) (inboxSize outboxSize : Nat) :
    Exact base [] (launch base childId publisher bus inboxSize outboxSize) where
  named := rfl
  sound := hb
  received _ hid := by cases hid
  taken := List.nil_prefix
  unsubscribed _ := List.not_mem_nil
  announced h := by cases h
  handed := rfl
  cancelled h := by cases h
  ended _ h := by cases h

theorem linked_launch (base : String) (childId : UInt32) (publisher : Publisher) (bus : Bus)
    (inboxSize outboxSize : Nat) :
    Linked [] (launch base childId publisher bus inboxSize outboxSize) :=
  fun _ => ⟨rfl, fun _ => rfl⟩

theorem Exact.subscribed (h : Exact base events x) : x.relay.Subscribed := by
  intro id hid
  obtain ⟨-, queue, hl, -⟩ := h.received id hid
  rw [h.named]
  exact hl.subject?

/-- What the neighbours do adds what they publish for all shards, and nothing else. -/
theorem Exact.around {bus : Bus} {inbox : Channel Message} {outbox : Channel Command}
    {cancelled : Bool} {absorbed : List Command}
    (h : Exact base events x) (he : ∀ a, e ≠ .relay a) (hsound : bus.Sound)
    (hlistens : ∀ id queue, x.relay.stage.subscription? = some id →
      x.relay.bus.Listens id (Subjects.below base).children queue →
        bus.Listens id (Subjects.below base).children
          (queue ++ offers (Subjects.below base).children [e]))
    (hcancelled : cancelled = true → .cancel ∈ events ++ [e]) :
    Exact base (events ++ [e])
      { relay := { x.relay with bus, inbox, outbox, cancelled }, absorbed } where
  named := h.named
  sound := hsound
  received id hid := by
    obtain ⟨hsubscribe, queue, hl, hqueue⟩ := h.received id hid
    refine ⟨List.mem_append_left _ hsubscribe, _, hlistens id queue hid hl, ?_⟩
    rw [since_append_of_mem hsubscribe, offers_append, ← hqueue, List.append_assoc]
  taken := by
    by_cases hsubscribe : .relay .subscribe ∈ events
    · rw [since_append_of_mem hsubscribe, offers_append]
      exact h.taken.trans (List.prefix_append _ _)
    · have hnone : .relay .subscribe ∉ events ++ [e] := by
        simpa [hsubscribe] using (he .subscribe).symm
      have htaken := h.taken
      rw [since_of_not_mem hsubscribe] at htaken
      rw [since_of_not_mem hnone]
      exact htaken
  unsubscribed hstage := by
    simpa [h.unsubscribed hstage] using (he .subscribe).symm
  announced ha := by
    have hbefore : .relay .announce ∈ events := by
      simpa [(he .announce).symm] using ha
    obtain ⟨hsubscribe, earlier, hearlier⟩ := h.announced hbefore
    refine ⟨List.mem_append_left _ hsubscribe, earlier, ?_⟩
    rw [since_append_of_mem hbefore, since_append_of_mem hsubscribe, ← hearlier,
      List.append_assoc]
  handed := h.handed
  cancelled := hcancelled
  ended r hr := ⟨(h.ended r hr).1, List.mem_append_left _ (h.ended r hr).2⟩

/-- A relay that subscribes begins with nothing. -/
theorem Exact.subscribe {t : State} (h : Exact base events x) (hs : Steps x.relay .subscribe t) :
    Exact base (events ++ [.relay .subscribe]) { x with relay := t } := by
  have hleft := hs.stage_ne_subscribing
  cases hs with
  | subscribe hstage =>
      have hnew := h.unsubscribed hstage
      have htaken : x.relay.taken = [] := by
        have hprefix := h.taken
        rw [since_of_not_mem hnew] at hprefix
        exact List.prefix_nil.1 hprefix
      have hannounced : .relay .announce ∉ events := fun ha => hnew (h.announced ha).1
      refine ⟨h.named, (h.sound.subscribe _).sound, fun id hid => ?_, ?_,
        fun hstage' => absurd hstage' hleft, fun ha => ?_, h.handed,
        fun hc => List.mem_append_left _ (h.cancelled hc), fun r hr => by cases hr⟩
      · cases hid
        refine ⟨List.mem_append_right _ (List.mem_singleton_self _), [], ?_, ?_⟩
        · rw [← h.named]
          exact Bus.listens_subscribe h.sound _
        · rw [since_snoc_of_not_mem hnew]
          exact (List.append_nil _).trans htaken
      · change x.relay.taken <+: _
        rw [htaken]
        exact List.nil_prefix
      · simp [hannounced] at ha

/-- A relay that has subscribed goes on taking what waits for it from the front. -/
theorem Exact.serve {a : Action} {t : State} {id : Nat} (h : Exact base events x)
    (hid : x.relay.stage.subscription? = some id) (hs : Steps x.relay a t) :
    Exact base (events ++ [.relay a]) { x with relay := t } := by
  obtain ⟨hparent, -, hready⟩ := Subjects.below_distinct base
  obtain ⟨hsubscribe, queue, hl, hqueue⟩ := h.received id hid
  rw [← h.named] at hl hready hparent
  obtain ⟨queue', hsame, hlistens⟩ :=
    hs.taken_append_queue h.sound hid hl hparent.symm hready
  rw [h.named] at hlistens
  have hoffers : offers (Subjects.below base).children
      (since (.relay .subscribe) (events ++ [.relay a])) = t.taken ++ queue' := by
    rw [since_append_of_mem hsubscribe, offers_append, hsame, hqueue]
    exact List.append_nil _
  refine ⟨hs.constant.1.trans h.named, (hs.extends_bus h.sound).sound, fun id' hid' => ?_, ?_,
    fun hstage => absurd hstage hs.stage_ne_subscribing, fun ha => ?_, hs.handed h.handed,
    fun hc => ?_, fun r hr => ?_⟩
  · obtain ⟨rfl, hl'⟩ := hlistens id' hid'
    exact ⟨List.mem_append_left _ hsubscribe, queue', hl', hoffers.symm⟩
  · rw [hoffers]
    exact List.prefix_append _ _
  · refine ⟨List.mem_append_left _ hsubscribe, ?_⟩
    rw [since_append_of_mem hsubscribe]
    by_cases hbefore : .relay .announce ∈ events
    · obtain ⟨-, earlier, hearlier⟩ := h.announced hbefore
      refine ⟨earlier, ?_⟩
      rw [since_append_of_mem hbefore, ← hearlier, List.append_assoc]
    · obtain rfl : a = .announce := by simpa [hbefore, eq_comm] using ha
      rw [since_snoc_of_not_mem hbefore]
      exact List.nil_suffix
  · exact List.mem_append_left _ (h.cancelled (hs.constant.2.1 ▸ hc))
  · obtain ⟨hok, hc⟩ := hs.result_eq hr
    exact ⟨hok, List.mem_append_left _ (h.cancelled hc)⟩

theorem Exact.step (h : Exact base events x) (hs : Exchange.step x e = some y) :
    Exact base (events ++ [e]) y := by
  have hquiet {bus : Bus} (hnothing : offers (Subjects.below base).children [e] = [])
      (hsame : ∀ id queue, x.relay.stage.subscription? = some id →
        x.relay.bus.Listens id (Subjects.below base).children queue →
          bus.Listens id (Subjects.below base).children queue) (id : Nat) (queue : List Bytes)
      (hid : x.relay.stage.subscription? = some id)
      (hl : x.relay.bus.Listens id (Subjects.below base).children queue) :
      bus.Listens id (Subjects.below base).children
        (queue ++ offers (Subjects.below base).children [e]) := by
    rw [hnothing, List.append_nil]
    exact hsame id queue hid hl
  have huntouched (hnothing : offers (Subjects.below base).children [e] = []) :=
    hquiet hnothing fun _ _ _ (hl : x.relay.bus.Listens _ _ _) => hl
  have hnot_own {id id' : Nat} (hother : x.relay.stage.subscription? ≠ some id)
      (hid' : x.relay.stage.subscription? = some id') : id ≠ id' :=
    fun hsame => hother (hsame ▸ hid')
  have htold (hc : x.relay.cancelled = true) : .cancel ∈ events ++ [e] :=
    List.mem_append_left _ (h.cancelled hc)
  cases e with
  | relay a =>
      obtain ⟨t, ht, rfl⟩ := Option.map_eq_some_iff.1 hs
      have hsteps := steps_of_step h.sound h.subscribed ht
      cases hid : x.relay.stage.subscription? with
      | none =>
          obtain rfl := hsteps.eq_subscribe hid
          exact h.subscribe hsteps
      | some id => exact h.serve hid hsteps
  | deliver m =>
      obtain ⟨inbox, -, rfl⟩ := Option.map_eq_some_iff.1 hs
      exact h.around nofun h.sound (huntouched rfl) htold
  | closeMesh =>
      cases hs
      exact h.around nofun h.sound (huntouched rfl) htold
  | absorb =>
      obtain ⟨⟨c, outbox⟩, -, rfl⟩ := Option.map_eq_some_iff.1 hs
      exact h.around nofun h.sound (huntouched rfl) htold
  | closeNetwork =>
      cases hs
      exact h.around nofun h.sound (huntouched rfl) htold
  | publish subject data =>
      cases hs
      exact h.around nofun (h.sound.publish subject data).sound
        (fun id queue _ => (h.sound.tells_publish _ subject data).listens id queue) htold
  | subscribe subject =>
      cases hs
      exact h.around nofun (h.sound.subscribe subject).sound
        (fun id queue _ => (h.sound.tells_subscribe _ subject).listens id queue) htold
  | read id =>
      simp only [Exchange.step, Option.ite_none_left_eq_some, Option.some.injEq] at hs
      obtain ⟨hother, rfl⟩ := hs
      exact h.around nofun (h.sound.advance id).sound
        (hquiet rfl fun _ _ hid' hl => hl.advance_of_ne (hnot_own hother hid')) htold
  | leave id =>
      simp only [Exchange.step, Option.ite_none_left_eq_some, Option.some.injEq] at hs
      obtain ⟨hother, rfl⟩ := hs
      exact h.around nofun (h.sound.leave id).sound
        (hquiet rfl fun _ _ hid' hl => hl.leave_of_ne (hnot_own hother hid')) htold
  | cancel =>
      cases hs
      exact h.around nofun h.sound (huntouched rfl)
        fun _ => List.mem_append_right _ (List.mem_singleton_self _)

theorem Linked.relay {a : Action} {t : State} (h : Linked events x)
    (hstep : ChildRelay.step x.relay a = some t) (hs : Steps x.relay a t) :
    Linked (events ++ [.relay a]) { x with relay := t } := by
  intro hopen
  obtain ⟨hheard, hall⟩ := h fun hclosed => hopen (List.mem_append_left _ hclosed)
  cases hs with
  | subscribe hstage =>
      refine ⟨hheard, fun hc => ?_⟩
      rw [← hall hc, hstage]
      rfl
  | announce id hstage =>
      refine ⟨hheard, fun hc => ?_⟩
      rw [← hall hc, hstage]
      rfl
  | stop id hstage hcancelled =>
      refine ⟨hheard, fun hc => ?_⟩
      change _ = x.relay.handed.map fun text => Command.publish (Utf8.encode text)
      rw [← hall hc, hstage]
      rfl
  | forward id m inbox hstage hreceive => exact ⟨hheard, hall⟩
  | skip id data hstage hread htext => exact ⟨hheard, hall⟩
  | take id data text stage hstage hread htext hnext =>
      refine ⟨hheard, fun hc => ?_⟩
      have hwaits := Option.some.inj
        (hstep.symm.trans (step_take_of_connected hc hstage hread htext))
      have hstage' : stage = .publishing id data := congrArg State.stage hwaits
      have hbefore := hall hc
      rw [hstage] at hbefore
      simp only [Stage.pending, List.map_nil, List.append_nil] at hbefore
      simp [hstage', Stage.pending, hbefore, (legible_of_envelopeText? htext).2]
  | handOver id data outbox hstage hsend =>
      obtain ⟨-, -, rfl⟩ := Channel.send?_eq_some_iff.1 hsend
      refine ⟨hheard, fun hc => ?_⟩
      have hbefore := hall hc
      rw [hstage] at hbefore
      simpa [Stage.pending] using hbefore
  | discard id data hstage hgone =>
      rw [hheard] at hgone
      cases hgone

theorem Linked.step (h : Linked events x) (hexact : Exact base events x)
    (hs : Exchange.step x e = some y) : Linked (events ++ [e]) y := by
  have hbefore (hopen : .closeNetwork ∉ events ++ [e]) : .closeNetwork ∉ events :=
    fun hclosed => hopen (List.mem_append_left _ hclosed)
  cases e with
  | relay a =>
      obtain ⟨t, ht, rfl⟩ := Option.map_eq_some_iff.1 hs
      exact h.relay ht (steps_of_step hexact.sound hexact.subscribed ht)
  | deliver m =>
      obtain ⟨inbox, -, rfl⟩ := Option.map_eq_some_iff.1 hs
      exact fun hopen => h (hbefore hopen)
  | absorb =>
      obtain ⟨⟨c, outbox⟩, hreceive, rfl⟩ := Option.map_eq_some_iff.1 hs
      obtain ⟨hitems, houtbox⟩ := Channel.receive?_eq_some_iff.1 hreceive
      intro hopen
      obtain ⟨hheard, hall⟩ := h (hbefore hopen)
      refine ⟨?_, fun hc => ?_⟩
      · rw [houtbox]
        exact hheard
      · simpa [hitems] using hall hc
  | closeNetwork =>
      exact fun hopen => absurd (List.mem_append_right _ (List.mem_singleton_self _)) hopen
  | read id =>
      simp only [Exchange.step, Option.ite_none_left_eq_some, Option.some.injEq] at hs
      obtain ⟨-, rfl⟩ := hs
      exact fun hopen => h (hbefore hopen)
  | leave id =>
      simp only [Exchange.step, Option.ite_none_left_eq_some, Option.some.injEq] at hs
      obtain ⟨-, rfl⟩ := hs
      exact fun hopen => h (hbefore hopen)
  | _ =>
      cases hs
      exact fun hopen => h (hbefore hopen)

end Preservation

/-- The relay and its neighbours, whatever they do. -/
def Runs (base : String) (childId : UInt32) (publisher : Publisher) (bus : Bus)
    (inboxSize outboxSize : Nat) : List Event → Exchange → Prop :=
  Reaches step (fun _ _ => True) (launch base childId publisher bus inboxSize outboxSize)

section Runs

variable {base : String} {childId : UInt32} {publisher : Publisher} {bus : Bus}
  {inboxSize outboxSize : Nat} {events : List Event} {x : Exchange}

theorem Runs.exact (hb : bus.Sound)
    (hrun : Runs base childId publisher bus inboxSize outboxSize events x) :
    Exact base events x ∧ Linked events x := by
  induction hrun with
  | start =>
      exact ⟨exact_launch base childId publisher hb inboxSize outboxSize,
        linked_launch base childId publisher bus inboxSize outboxSize⟩
  | step _ _ hs ih => exact ⟨ih.1.step hs, ih.2.step ih.1 hs⟩

end Runs

/-- Once a relay has announced itself and until it returns, what it took and what waits in its
subscription is all that others published for the shards since it subscribed, so everything since
its announcement is there, and nothing of what it forwards itself. It handed over exactly the
envelopes among the bytes that it took, each once and byte for byte, and never an empty text. In a
room all of them reach the network. The rest is skipped: a relay that serves takes whatever comes
next, and it returns only when it was told to stop. -/
theorem publishes_exactly {base : String} {childId : UInt32} {publisher : Publisher} {bus : Bus}
    {inboxSize outboxSize : Nat} {events : List Event} {x : Exchange} (hb : bus.Sound)
    (hrun : Runs base childId publisher bus inboxSize outboxSize events x) :
    (.relay .announce ∈ events → x.relay.result? = none →
      ∃ id queue, x.relay.stage.subscription? = some id ∧
        x.relay.bus.Listens id (Subjects.below base).children queue ∧
        x.relay.taken ++ queue =
          offers (Subjects.below base).children (since (.relay .subscribe) events) ∧
        offers (Subjects.below base).children (since (.relay .announce) events) <:+
          x.relay.taken ++ queue) ∧
    x.relay.taken <+: offers (Subjects.below base).children (since (.relay .subscribe) events) ∧
    x.relay.handed.map Utf8.encode = x.relay.taken.filter legible ∧
    (∀ text ∈ x.relay.handed, text ≠ "") ∧
    (x.relay.publisher.connected = true → .closeNetwork ∉ events →
      x.absorbed ++ x.relay.outbox.items ++ x.relay.stage.pending.map .publish =
        x.relay.handed.map fun text => .publish (Utf8.encode text)) ∧
    (∀ id data rest, x.relay.stage = .serving id →
      x.relay.bus.Listens id (Subjects.below base).children (data :: rest) →
        ∃ t, ChildRelay.step x.relay .take = some t ∧ t.result? = none ∧
          t.taken = x.relay.taken ++ [data] ∧
          (legible data = false →
            t = { x.relay with
              bus := x.relay.bus.advance id, taken := x.relay.taken ++ [data] })) ∧
    (∀ r, x.relay.result? = some r → r = .ok () ∧ .cancel ∈ events) := by
  obtain ⟨hexact, hlinked⟩ := hrun.exact hb
  refine ⟨fun hannounced hopen => ?_, hexact.taken, hexact.handed, ?_,
    fun hc hnetwork => (hlinked hnetwork).2 hc,
    fun id data rest hstage hl => exists_take hstage hl.reading_cons, hexact.ended⟩
  · obtain ⟨hsubscribe, earlier, hearlier⟩ := hexact.announced hannounced
    cases hid : x.relay.stage.subscription? with
    | none =>
        generalize hstage : x.relay.stage = stage at hid
        cases stage with
        | subscribing => exact absurd hsubscribe (hexact.unsubscribed hstage)
        | ended r => simp [State.result?, hstage] at hopen
        | _ => cases hid
    | some id =>
        obtain ⟨-, queue, hl, hqueue⟩ := hexact.received id hid
        refine ⟨id, queue, rfl, hl, hqueue, ?_⟩
        rw [hqueue, ← hearlier, offers_append]
        exact List.suffix_append _ _
  · intro text htext
    have hmem : Utf8.encode text ∈ x.relay.taken.filter legible :=
      hexact.handed ▸ List.mem_map_of_mem htext
    exact ne_empty_of_legible (List.mem_filter.1 hmem).2

/-- An envelope that the parent wants published. -/
def request : Message :=
  { context := "request", payload := .null }

/-- Others publish before the relay has subscribed, something that is no envelope, a request, and
something that is no text; the relay forwards an envelope meanwhile. -/
def chatter : List Event :=
  [.publish "s.children" request.toBytes, .relay .subscribe, .publish "s.children" [1],
    .relay .announce, .deliver request, .publish "s.children" request.toBytes, .relay .forward,
    .relay .take, .relay .take, .publish "s.children" [255], .relay .handOver, .absorb]

/-- The request is published once; what is no text still waits. -/
theorem chatter_published :
    ∃ x, Runs "s" 1 { connected := true } {} 4 4 chatter x ∧
      x.absorbed = [.publish request.toBytes] ∧ x.relay.handed.map Utf8.encode = [request.toBytes] ∧
      ∃ id queue, x.relay.bus.Listens id "s.children" queue ∧
        x.relay.taken ++ queue = [[1], request.toBytes, [255]] := by
  have hstate : (replay step (fun _ _ => true) (launch "s" 1 { connected := true } {} 4 4)
      chatter).map (fun x => (x.absorbed, x.relay.taken, x.relay.result?.isNone)) =
        some ([.publish request.toBytes], [[1], request.toBytes], true) := by decide +kernel
  obtain ⟨x, hx, hstate⟩ := Option.map_eq_some_iff.1 hstate
  simp only [Prod.mk.injEq, Option.isNone_iff_eq_none] at hstate
  obtain ⟨habsorbed, htaken, hopen⟩ := hstate
  have hrun : Runs "s" 1 { connected := true } {} 4 4 chatter x :=
    reaches_of_replay (fun _ _ => true) (fun _ _ _ => trivial) hx
  obtain ⟨hreceived, -, hhanded, -⟩ := publishes_exactly Bus.sound_empty hrun
  obtain ⟨id, queue, -, hl, hqueue, -⟩ := hreceived (by decide) hopen
  refine ⟨x, hrun, habsorbed, ?_, id, queue, hl, ?_⟩
  · rw [hhanded, htaken]
    decide +kernel
  · rw [hqueue]
    decide +kernel

end Exchange

end ChildRelay

end GossipDirectory
