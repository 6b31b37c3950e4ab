import GossipDirectory.Proofs.Collection.Outcome
import GossipDirectory.Proofs.Mesh.ShardTasks

/-!
# When a running shard is stuck

The tasks of a shard form a cycle: the network task hands gossip to the receive loop, the loop hands
envelopes to the relay, and the relay hands publications to the network task. Each of them waits for
room in the next queue and does nothing else meanwhile. If all three wait at once, none goes on
before the shard is told to stop, and enough traffic from both sides can bring this about.

## Implementation notes

A run into the deadlock is built from moves between postures. A posture leaves out everything that
the moves do not depend on.
-/

namespace GossipDirectory

theorem ReceiveLoop.Steps.hasRoom_of_delivering {s t : State} {a : Action} {m : Message}
    (h : Steps s a t) (hm : s.stage = .delivering m) (hheard : s.delivery.heard = true)
    (hc : s.cancelled = false) : s.delivery.hasRoom = true := by
  cases h with
  | stop hstage htold =>
      rw [hc] at htold
      cases htold
  | accept g inbound m' hstage => cases hstage.symm.trans hm
  | skip g inbound hstage => cases hstage.symm.trans hm
  | noticeEnd hstage => cases hstage.symm.trans hm
  | retry hstage => cases hstage.symm.trans hm
  | deliver m' delivery hstage hsend =>
      exact decide_eq_true (Channel.send?_eq_some_iff.1 hsend).2.1
  | discard m' hstage hgone =>
      rw [hheard] at hgone
      cases hgone

theorem ChildRelay.Steps.hasRoom_of_publishing {s t : State} {a : Action} {id : Nat} {data : Bytes}
    (h : Steps s a t) (hdata : s.stage = .publishing id data) (hheard : s.outbox.heard = true) :
    s.outbox.hasRoom = true := by
  cases h with
  | subscribe hstage => cases hstage.symm.trans hdata
  | announce id' hstage => cases hstage.symm.trans hdata
  | stop id' hstage => cases hstage.symm.trans hdata
  | forward id' m inbox hstage => cases hstage.symm.trans hdata
  | skip id' data' hstage => cases hstage.symm.trans hdata
  | take id' data' text stage hstage => cases hstage.symm.trans hdata
  | handOver id' data' outbox hstage hsend =>
      exact decide_eq_true (Channel.send?_eq_some_iff.1 hsend).2.1
  | discard id' data' hstage hgone =>
      rw [hheard] at hgone
      cases hgone

namespace NodeTasks

/-- Every task waits for room in the queue of another: the network task hands gossip to the receive
loop, the loop an envelope to the relay, and the relay a publication to the network task. -/
structure State.Deadlocked (s : State) : Prop where
  network : (∃ g, s.network.stage = .handing g) ∧ s.inbound.hasRoom = false
  receiver : (∃ m, s.receiver.stage = .delivering m) ∧ s.delivery.hasRoom = false
  relay : (∃ r id data, s.application = .relay r ∧ r.stage = .publishing id data) ∧
    s.commands.hasRoom = false

variable {me : PeerId} {base : String} {actions : List Action} {s t : State}
  {r : ChildRelay.State}

/-! ## Deadlocks last -/

/-- In a deadlock nothing happens but that the parent sends more. -/
theorem Running.deadlocked_step (h : Running me base actions s r) (hdead : s.Deadlocked)
    {a : Action} (ha : a ≠ .cancel) (hs : Steps s r a t) :
    t.Deadlocked ∧ a.isInstruction = true := by
  obtain ⟨⟨g, hg⟩, hinbound⟩ := hdead.network
  obtain ⟨⟨m, hm⟩, hdelivery⟩ := hdead.receiver
  obtain ⟨⟨r', id, data, hr', hpublishing⟩, hcommands⟩ := hdead.relay
  rw [h.relay] at hr'
  cases hr'
  cases hs with
  | cancel => exact absurd rfl ha
  | instruct data' =>
      exact ⟨⟨hdead.network, hdead.receiver, ⟨_, id, data, rfl, hpublishing⟩, hcommands⟩, rfl⟩
  | network hs =>
      have hroom : s.inbound.hasRoom = true := hs.hasRoom_of_handing hg h.inbound.2.1
      rw [hinbound] at hroom
      cases hroom
  | receive hs =>
      have hroom : s.delivery.hasRoom = true :=
        hs.hasRoom_of_delivering hm h.delivery.2.1 h.uncancelled
      rw [hdelivery] at hroom
      cases hroom
  | relay hs =>
      have hroom : s.commands.hasRoom = true := hs.hasRoom_of_publishing hpublishing h.commands.2.1
      rw [hcommands] at hroom
      cases hroom

/-- A deadlocked shard stays so until it is told to stop, whatever the parent sends meanwhile. -/
theorem Running.deadlocked_run (h : Running me base actions s r) (hdead : s.Deadlocked)
    {more : List Action} (hrun : Reaches NodeTasks.step Uncancelled s more t) :
    t.Deadlocked ∧ ∀ a ∈ more, a.isInstruction = true := by
  have hall : t.Deadlocked ∧ (∀ a ∈ more, a.isInstruction = true) ∧
      ∃ r', Running me base (actions ++ more) t r' := by
    induction hrun with
    | start => exact ⟨hdead, by simp, r, by simpa using h⟩
    | step _ ha ht ih =>
        obtain ⟨hdead', hbefore, r', hr'⟩ := ih
        have hs := steps_of_step hr'.relay hr'.snapshots hr'.bus hr'.subscribed ht
        obtain ⟨hnext, hinstruction⟩ := hr'.deadlocked_step hdead' ha hs
        refine ⟨hnext, ?_, List.append_assoc .. ▸ hr'.step ha hs⟩
        intro a' ha'
        rcases List.mem_append.1 ha' with ha' | ha'
        · exact hbefore a' ha'
        · rw [List.mem_singleton.1 ha']
          exact hinstruction
  exact ⟨hall.1, hall.2.1⟩

/-! ## Nothing else is stuck -/

section Stuck

variable (h : Running me base actions s r) (hstuck : ¬ s.canStep)
include h hstuck

theorem Running.network_stuck :
    (s.network.stage = .serving ∧ s.commands.items = []) ∨
      ((∃ g, s.network.stage = .handing g) ∧ s.inbound.hasRoom = false) := by
  cases hstage : s.network.stage with
  | ended => exact absurd hstage h.network
  | serving =>
      cases hitems : s.commands.items with
      | nil => exact Or.inl ⟨rfl, rfl⟩
      | cons c rest =>
          exfalso
          let answer : DialAnswer := { id := 0 }
          refine hstuck ⟨.network (.command answer), rfl, ?_⟩
          simp [NodeTasks.step, State.stepNetwork, NetworkTask.step, State.networkTask, hstage,
            Channel.receive?, hitems]
  | handing g =>
      right
      refine ⟨⟨g, rfl⟩, Bool.eq_false_iff.2 fun hroom => hstuck ⟨.network .hand, rfl, ?_⟩⟩
      have hsend := h.inbound.send?_eq (h.inbound.hasRoom_iff.1 hroom) g
      simp [NodeTasks.step, State.stepNetwork, NetworkTask.step, State.networkTask, hstage, hsend]

theorem Running.receiver_stuck :
    (s.receiver.stage = .listening ∧ s.inbound.items = []) ∨
      ((∃ m, s.receiver.stage = .delivering m) ∧ s.delivery.hasRoom = false) := by
  cases hstage : s.receiver.stage with
  | ended => exact absurd hstage h.receiver
  | retrying =>
      exfalso
      refine hstuck ⟨.receive .retry, rfl, ?_⟩
      simp [NodeTasks.step, State.stepReceiver, ReceiveLoop.step, State.receiveLoop, hstage]
  | listening =>
      cases hitems : s.inbound.items with
      | nil => exact Or.inl ⟨rfl, rfl⟩
      | cons g rest =>
          exfalso
          refine hstuck ⟨.receive .receive, rfl, ?_⟩
          simp [NodeTasks.step, State.stepReceiver, ReceiveLoop.step, State.receiveLoop, hstage,
            Channel.receive?, hitems]
  | delivering m =>
      right
      refine ⟨⟨m, rfl⟩, Bool.eq_false_iff.2 fun hroom => hstuck ⟨.receive .deliver, rfl, ?_⟩⟩
      have hsend := h.delivery.send?_eq (h.delivery.hasRoom_iff.1 hroom) m
      simp [NodeTasks.step, State.stepReceiver, ReceiveLoop.step, State.receiveLoop, hstage, hsend]

theorem Running.relay_stuck :
    (∃ id, r.stage = .serving id ∧ s.delivery.items = [] ∧ s.application.instructions = []) ∨
      ((∃ id data, r.stage = .publishing id data) ∧ s.commands.hasRoom = false) := by
  have hrelay := h.relay
  have hopen := h.relaying
  cases hstage : r.stage with
  | ended result => simp [ChildRelay.State.result?, hstage] at hopen
  | subscribing =>
      exfalso
      refine hstuck ⟨.relay .subscribe, rfl, ?_⟩
      simp [NodeTasks.step, State.stepRelay, hrelay, ChildRelay.step, hstage, h.bus.subscribe_eq]
  | announcing id =>
      exfalso
      refine hstuck ⟨.relay .announce, rfl, ?_⟩
      simp [NodeTasks.step, State.stepRelay, hrelay, ChildRelay.step, hstage, h.bus.publish_eq]
  | serving id =>
      obtain ⟨queue, hhears, -⟩ := h.instructed
      have hlistens := hhears id (by rw [hstage]; rfl)
      have hinstructions : s.application.instructions = queue := by
        simp only [hrelay, Application.instructions, hstage]
        exact hlistens.queue_eq
      refine Or.inl ⟨id, rfl, ?_, ?_⟩
      · cases hitems : s.delivery.items with
        | nil => rfl
        | cons m rest =>
            exfalso
            refine hstuck ⟨.relay .forward, rfl, ?_⟩
            simp [NodeTasks.step, State.stepRelay, hrelay, ChildRelay.step, hstage,
              Channel.receive?, hitems]
      · rw [hinstructions]
        cases queue with
        | nil => rfl
        | cons data rest =>
            exfalso
            refine hstuck ⟨.relay .take, rfl, ?_⟩
            simp only [NodeTasks.step, State.stepRelay, hrelay, ChildRelay.step, hstage,
              hlistens.reading_cons, Option.isSome_map]
            split <;> rfl
  | publishing id data =>
      right
      refine ⟨⟨id, data, rfl⟩, Bool.eq_false_iff.2 fun hroom => hstuck ⟨.relay .handOver, rfl, ?_⟩⟩
      have hsend := h.commands.send?_eq (h.commands.hasRoom_iff.1 hroom) (.publish data)
      simp [NodeTasks.step, State.stepRelay, hrelay, ChildRelay.step, hstage, hsend]

end Stuck

/-- If work is left and no task can go on, all three wait for room. -/
theorem Running.deadlocked_of_stuck (h : Running me base actions s r) (hwork : s.hasWork)
    (hstuck : ¬ s.canStep) : s.Deadlocked := by
  have hinbound := h.inbound.ne_nil_of_not_hasRoom (by decide)
  have hdelivery := h.delivery.ne_nil_of_not_hasRoom (by decide)
  have hcommands := h.commands.ne_nil_of_not_hasRoom (by decide)
  have hrelay := h.relay
  rcases h.network_stuck hstuck with ⟨hserving, hnone⟩ | hnetwork
  · -- without commands nobody waits for room, from the relay back to the network task
    exfalso
    obtain ⟨id, hstage, hempty, hquiet⟩ :=
      (h.relay_stuck hstuck).resolve_right fun hfull => hcommands hfull.2 hnone
    obtain ⟨hlistening, hidle⟩ :=
      (h.receiver_stuck hstuck).resolve_right fun hfull => hdelivery hfull.2 hempty
    rw [hrelay] at hquiet
    have hnothing : ¬ s.hasWork := by
      simp [State.hasWork, hnone, hidle, hempty, hserving, hlistening, hquiet, hrelay,
        Application.occupied, hstage, State.takingSnapshot, h.snapshots]
    exact hnothing hwork
  · rcases h.receiver_stuck hstuck with ⟨-, hidle⟩ | hreceiver
    · exact absurd hidle (hinbound hnetwork.2)
    · rcases h.relay_stuck hstuck with ⟨id, -, hempty, -⟩ | ⟨⟨id, data, hstage⟩, hfull⟩
      · exact absurd hempty (hdelivery hreceiver.2)
      · exact ⟨hnetwork, hreceiver, ⟨r, id, data, hrelay, hstage⟩, hfull⟩

theorem Running.stuck_iff (h : Running me base actions s r) :
    (s.hasWork ∧ ¬ s.canStep) ↔ s.Deadlocked := by
  constructor
  · rintro ⟨hwork, hstuck⟩
    exact h.deadlocked_of_stuck hwork hstuck
  · intro hdead
    constructor
    · exact Or.inr (Or.inr (Or.inr (Or.inl hdead.network.1)))
    · rintro ⟨a, hown, hstep⟩
      obtain ⟨t, ht⟩ := Option.isSome_iff_exists.1 hstep
      have hs := steps_of_step h.relay h.snapshots h.bus h.subscribed ht
      have hcancel : a ≠ .cancel := by
        rintro rfl
        cases hown
      have hinstruction := (h.deadlocked_step hdead hcancel hs).2
      cases a with
      | instruct data => cases hown
      | _ => cases hinstruction

/-- A deadlock takes enough gossip to fill both queues before the relay, and enough envelopes of the
parent to fill the commands. -/
theorem Running.needed (h : Running me base actions s r) (hdead : s.Deadlocked) :
    Server.inboundQueue + Server.messageQueue + 2 ≤ actions.countP Action.isGossip ∧
      Server.commandQueue + 1 ≤ actions.countP Action.isInstruction := by
  obtain ⟨⟨g, hg⟩, hinbound⟩ := hdead.network
  obtain ⟨⟨m, hm⟩, hdelivery⟩ := hdead.receiver
  obtain ⟨⟨r', id, data, hr', hpublishing⟩, hcommands⟩ := hdead.relay
  rw [h.relay] at hr'
  cases hr'
  have hinboundFull := h.inbound.not_hasRoom_iff.1 hinbound
  have hdeliveryFull := h.delivery.not_hasRoom_iff.1 hdelivery
  have hcommandsFull := h.commands.not_hasRoom_iff.1 hcommands
  constructor
  · have hheld := h.held
    simp only [State.held, hg, hm, NetworkTask.Stage.inHand, ReceiveLoop.Stage.inHand] at hheld
    omega
  · obtain ⟨queue, -, hinstructed⟩ := h.instructed
    simp only [hpublishing, ChildRelay.Stage.inHand] at hinstructed
    omega

/-! ## A run into a deadlock -/

/-- Gossip of another peer than `me`. -/
def foreignGossip (me : PeerId) : InboundGossip :=
  ⟨{ me with code := me.code + 1 }, none, ReceiveLoop.Exchange.greeting.toBytes⟩

theorem accepted_foreignGossip (me : PeerId) :
    ReceiveLoop.accepted? me (foreignGossip me) = some ReceiveLoop.Exchange.greeting := by
  have hforwarder : (foreignGossip me).forwarder ≠ me := by
    intro h
    have hcode := congrArg (·.code) h
    exact absurd hcode (Nat.succ_ne_self _)
  have hauthor : (foreignGossip me).author ≠ some me := nofun
  have hread : Message.ofBytes ReceiveLoop.Exchange.greeting.toBytes =
      .ok ReceiveLoop.Exchange.greeting := eq_ok_of_toOption (by decide +kernel)
  rw [ReceiveLoop.accepted?, if_neg (not_or.2 ⟨hforwarder, hauthor⟩)]
  simp only [foreignGossip, hread]

theorem exists_greetingText :
    ∃ text, ChildRelay.envelopeText? ReceiveLoop.Exchange.greeting.toBytes = some text ∧
      text ≠ "" := by
  have hany : (ChildRelay.envelopeText? ReceiveLoop.Exchange.greeting.toBytes).any (· ≠ "") := by
    decide +kernel
  cases htext : ChildRelay.envelopeText? ReceiveLoop.Exchange.greeting.toBytes with
  | none =>
      rw [htext] at hany
      cases hany
  | some text =>
      rw [htext] at hany
      exact ⟨text, rfl, by simpa using hany⟩

/-- What the tasks of a shard are at, and how much their queues hold. -/
structure Posture where
  network : NetworkTask.Stage := .serving
  inbound : List InboundGossip := []
  receiver : ReceiveLoop.Stage := .listening
  envelopes : Nat := 0
  commands : Nat := 0
  relay : ChildRelay.Stage
  /-- What waits for the relay on the bus. -/
  waiting : List Bytes := []

/-- The tasks of a shard with a relay have a posture. -/
structure State.Has (s : State) (r : ChildRelay.State) (p : Posture) : Prop where
  network : s.network.stage = p.network
  inbound : s.inbound.items = p.inbound
  receiver : s.receiver.stage = p.receiver
  envelopes : s.delivery.items.length = p.envelopes
  commands : s.commands.items.length = p.commands
  relay : s.application = .relay r ∧ r.stage = p.relay ∧ r.Hears p.waiting

/-- A started shard comes to a posture with so much gossip and so many envelopes of the parent. -/
def Attainable (w : Worker) (base : String) (childId : UInt32) (gossip instructions : Nat)
    (p : Posture) : Prop :=
  ∃ actions s r, Runs w base childId actions s ∧ Running w.me base actions s r ∧ s.Has r p ∧
    actions.countP Action.isGossip = gossip ∧ actions.countP Action.isInstruction = instructions

namespace Attainable

variable {w : Worker} {childId : UInt32} {gossip instructions : Nat} {p p' : Posture}

/-- A step that is possible in every state of a posture. -/
theorem next (h : Attainable w base childId gossip instructions p) (a : Action)
    (ha : a ≠ .cancel)
    (hmove : ∀ actions s r, Running w.me base actions s r → s.Has r p →
      ∃ t r', step s a = some t ∧ Running w.me base (actions ++ [a]) t r' ∧ t.Has r' p') :
    Attainable w base childId (gossip + a.isGossip.toNat) (instructions + a.isInstruction.toNat)
      p' := by
  obtain ⟨actions, s, r, hrun, hr, hp, rfl, rfl⟩ := h
  obtain ⟨t, r', ht, hr', hp'⟩ := hmove actions s r hr hp
  exact ⟨actions ++ [a], t, r', Reaches.step hrun ha ht, hr', hp', countP_snoc _ _ _,
    countP_snoc _ _ _⟩

theorem report (h : Attainable w base childId gossip instructions p)
    (hserving : p.network = .serving) (g : InboundGossip) :
    Attainable w base childId (gossip + 1) instructions { p with network := .handing g } := by
  refine h.next (.network (.report 0 [] (.gossip g))) Action.noConfusion ?_
  intro actions s r hr hp
  have hstage : s.network.stage = .serving := hp.network.trans hserving
  have hs := NetworkTask.Steps.gossip 0 [] g hstage (s := s.networkTask)
  refine ⟨_, r, ?_, hr.networkStep hs, rfl, hp.inbound, hp.receiver, hp.envelopes, hp.commands,
    hp.relay⟩
  simp [NodeTasks.step, State.stepNetwork, NetworkTask.step, State.networkTask, hstage]

theorem hand {g : InboundGossip} (h : Attainable w base childId gossip instructions p)
    (hhanding : p.network = .handing g) (hroom : p.inbound.length < Server.inboundQueue) :
    Attainable w base childId gossip instructions
      { p with network := .serving, inbound := p.inbound ++ [g] } := by
  refine h.next (.network .hand) Action.noConfusion ?_
  intro actions s r hr hp
  have hstage : s.network.stage = .handing g := hp.network.trans hhanding
  have hitems : s.inbound.items = p.inbound := hp.inbound
  have hsend := hr.inbound.send?_eq (hitems ▸ hroom) g
  have hs := NetworkTask.Steps.hand g _ hstage hsend (s := s.networkTask)
  refine ⟨_, r, ?_, hr.networkStep hs, rfl, ?_, hp.receiver, hp.envelopes, hp.commands, hp.relay⟩
  · simp [NodeTasks.step, State.stepNetwork, NetworkTask.step, State.networkTask, hstage, hsend]
  · exact congrArg (· ++ [g]) hitems

theorem receive {rest : List InboundGossip} (h : Attainable w base childId gossip instructions p)
    (hlistening : p.receiver = .listening) (hinbound : p.inbound = foreignGossip w.me :: rest) :
    Attainable w base childId gossip instructions
      { p with inbound := rest, receiver := .delivering ReceiveLoop.Exchange.greeting } := by
  refine h.next (.receive .receive) Action.noConfusion ?_
  intro actions s r hr hp
  have hstage : s.receiver.stage = .listening := hp.receiver.trans hlistening
  have hreceive : s.inbound.receive? =
      some (foreignGossip w.me, { s.inbound with items := rest }) :=
    Channel.receive?_eq_some_iff.2 ⟨hp.inbound.trans hinbound, rfl⟩
  have haccepted : ReceiveLoop.accepted? s.receiver.me (foreignGossip w.me) =
      some ReceiveLoop.Exchange.greeting := by
    rw [hr.self]
    exact accepted_foreignGossip w.me
  have hs := ReceiveLoop.Steps.accept _ _ _ hstage hreceive haccepted (s := s.receiveLoop)
  refine ⟨_, r, ?_, hr.receiverStep hs, hp.network, rfl, rfl, hp.envelopes, hp.commands, hp.relay⟩
  simp [NodeTasks.step, State.stepReceiver, ReceiveLoop.step, State.receiveLoop, hstage,
    hreceive, haccepted]

theorem deliver {m : Message} (h : Attainable w base childId gossip instructions p)
    (hdelivering : p.receiver = .delivering m) (hroom : p.envelopes < Server.messageQueue) :
    Attainable w base childId gossip instructions
      { p with receiver := .listening, envelopes := p.envelopes + 1 } := by
  refine h.next (.receive .deliver) Action.noConfusion ?_
  intro actions s r hr hp
  have hstage : s.receiver.stage = .delivering m := hp.receiver.trans hdelivering
  have hlength : s.delivery.items.length = p.envelopes := hp.envelopes
  have hsend := hr.delivery.send?_eq (hlength ▸ hroom) m
  have hs := ReceiveLoop.Steps.deliver m _ hstage hsend (s := s.receiveLoop)
  refine ⟨_, r, ?_, hr.receiverStep hs, hp.network, hp.inbound, rfl, ?_, hp.commands, hp.relay⟩
  · simp [NodeTasks.step, State.stepReceiver, ReceiveLoop.step, State.receiveLoop, hstage,
      hsend]
  · simp [hlength]

theorem instruct (h : Attainable w base childId gossip instructions p) (data : Bytes) :
    Attainable w base childId gossip (instructions + 1)
      { p with waiting := p.waiting ++ [data] } := by
  refine h.next (.instruct data) Action.noConfusion ?_
  intro actions s r hr hp
  obtain ⟨hrelay, hstage, hhears⟩ := hp.relay
  refine ⟨_, _, ?_, hr.instructStep data, hp.network, hp.inbound, hp.receiver, hp.envelopes,
    hp.commands, rfl, hstage, fun id hid => (hhears id hid).spread_self hr.bus data⟩
  simp [NodeTasks.step, State.instructed, hrelay]

theorem handOver {id : Nat} {data : Bytes}
    (h : Attainable w base childId gossip instructions p)
    (hpublishing : p.relay = .publishing id data) (hroom : p.commands < Server.commandQueue) :
    Attainable w base childId gossip instructions
      { p with relay := .serving id, commands := p.commands + 1 } := by
  refine h.next (.relay .handOver) Action.noConfusion ?_
  intro actions s r hr hp
  obtain ⟨hrelay, hrelayStage, hhears⟩ := hp.relay
  have hstage := hrelayStage.trans hpublishing
  have hlength : s.commands.items.length = p.commands := hp.commands
  have hsend := hr.commands.send?_eq (hlength ▸ hroom) (.publish data)
  have hs := ChildRelay.Steps.handOver id data _ hstage hsend (s := s.relayTask r)
  refine ⟨_, _, ?_, hr.relayStep hs, hp.network, hp.inbound, hp.receiver, hp.envelopes, ?_, rfl,
    rfl, fun id' hid => hhears id' (hstage ▸ hid)⟩
  · simp [NodeTasks.step, State.stepRelay, hrelay, ChildRelay.step, hstage, hsend, State.relayTask]
  · simp [hlength]

theorem take {id : Nat} {rest : List Bytes} (h : Attainable w base childId gossip instructions p)
    (hserving : p.relay = .serving id)
    (hwaiting : p.waiting = ReceiveLoop.Exchange.greeting.toBytes :: rest) :
    ∃ data, Attainable w base childId gossip instructions
      { p with relay := .publishing id data, waiting := rest } := by
  obtain ⟨text, htext, hne⟩ := exists_greetingText
  refine ⟨Utf8.encode text, h.next (.relay .take) Action.noConfusion ?_⟩
  intro actions s r hr hp
  obtain ⟨hrelay, hrelayStage, hhears⟩ := hp.relay
  have hstage := hrelayStage.trans hserving
  rw [hwaiting] at hhears
  have hlistens := hhears id (by rw [hstage]; rfl)
  have hread := hlistens.reading_cons
  have hs := ChildRelay.Steps.take id _ text _ hstage hread htext (Or.inr rfl) (s := s.relayTask r)
  refine ⟨_, _, ?_, hr.relayStep hs, hp.network, hp.inbound, hp.receiver, hp.envelopes,
    hp.commands, rfl, rfl, ?_⟩
  · have hconnected := hr.publisher
    simp [NodeTasks.step, State.stepRelay, hrelay, ChildRelay.step, hstage, hread, htext,
      State.relayTask, ChildRelay.State.publishText, Publisher.publish, hne, hconnected]
  · intro id' hid
    cases hid
    exact hlistens.advance_self

theorem start (w : Worker) (base : String) (childId : UInt32) :
    Attainable w base childId 0 0 { relay := .serving 0 } := by
  have hsubscribed := (running_shard w base childId).relayStep (.subscribe rfl)
  have hannounced := hsubscribed.relayStep (.announce 0 rfl)
  have hrun : Runs w base childId [.relay .subscribe, .relay .announce] _ :=
    (Reaches.start.step Action.noConfusion rfl).step Action.noConfusion rfl
  refine ⟨_, _, _, hrun, hannounced, ⟨rfl, rfl, rfl, rfl, rfl, rfl, rfl, ?_⟩, rfl, rfl⟩
  intro id hid
  cases hid
  have hsound := (Bus.sound_empty.subscribe (Subjects.below base).children).sound
  exact (Bus.listens_subscribe Bus.sound_empty _).publish_of_ne hsound
    (Subjects.below_distinct base).2.2 _

/-! ### Filling the queues -/

/-- Envelopes pile up while the relay does not forward them. -/
theorem pile_envelopes {n : Nat} (hn : n ≤ Server.messageQueue)
    (h : Attainable w base childId 0 0 { relay := .serving 0 }) :
    Attainable w base childId n 0 { relay := .serving 0, envelopes := n } := by
  induction n with
  | zero => exact h
  | succ n ih =>
      let g := foreignGossip w.me
      have hbefore := ih (Nat.le_of_succ_le hn)
      have hreported : Attainable w base childId (n + 1) 0
          { network := .handing g, relay := .serving 0, envelopes := n } :=
        hbefore.report rfl g
      have hhanded : Attainable w base childId (n + 1) 0
          { inbound := [g], relay := .serving 0, envelopes := n } :=
        hreported.hand rfl (Nat.zero_lt_succ _)
      exact (hhanded.receive rfl rfl).deliver rfl hn

/-- Commands pile up while the network task does not carry them out. -/
theorem pile_commands {envelopes n : Nat} (hn : n ≤ Server.commandQueue)
    (h : Attainable w base childId gossip 0 { relay := .serving 0, envelopes }) :
    Attainable w base childId gossip n { relay := .serving 0, envelopes, commands := n } := by
  induction n with
  | zero => exact h
  | succ n ih =>
      let data := ReceiveLoop.Exchange.greeting.toBytes
      have hbefore := ih (Nat.le_of_succ_le hn)
      have hinstructed : Attainable w base childId gossip (n + 1)
          { relay := .serving 0, envelopes, commands := n, waiting := [data] } :=
        hbefore.instruct data
      obtain ⟨data', htaken⟩ := hinstructed.take rfl rfl
      exact htaken.handOver rfl hn

/-- Gossip piles up while the receive loop waits for room. -/
theorem pile_gossip {receiver : ReceiveLoop.Stage} {envelopes commands n : Nat}
    {relay : ChildRelay.Stage} (hn : n ≤ Server.inboundQueue) (g : InboundGossip)
    (h : Attainable w base childId gossip instructions { receiver, envelopes, commands, relay }) :
    Attainable w base childId (gossip + n) instructions
      { inbound := List.replicate n g, receiver, envelopes, commands, relay } := by
  induction n with
  | zero => exact h
  | succ n ih =>
      have hbefore := ih (Nat.le_of_succ_le hn)
      have hreported : Attainable w base childId (gossip + n + 1) instructions
          { network := .handing g, inbound := List.replicate n g, receiver, envelopes, commands,
            relay } :=
        hbefore.report rfl g
      rw [List.replicate_succ']
      exact hreported.hand rfl (by rw [List.length_replicate]; exact hn)

/-- All queues are full, and every task has something in its hands. -/
theorem jam (w : Worker) (base : String) (childId : UInt32) :
    ∃ data, Attainable w base childId (Server.inboundQueue + Server.messageQueue + 2)
      (Server.commandQueue + 1)
      { network := .handing (foreignGossip w.me)
        inbound := List.replicate Server.inboundQueue (foreignGossip w.me)
        receiver := .delivering ReceiveLoop.Exchange.greeting
        envelopes := Server.messageQueue
        commands := Server.commandQueue
        relay := .publishing 0 data } := by
  let g := foreignGossip w.me
  have henvelopes := pile_envelopes (Nat.le_refl _) (start w base childId)
  have hcommands := pile_commands (Nat.le_refl _) henvelopes
  have hinstructed : Attainable w base childId Server.messageQueue (Server.commandQueue + 1)
      { relay := .serving 0, envelopes := Server.messageQueue, commands := Server.commandQueue
        waiting := [ReceiveLoop.Exchange.greeting.toBytes] } :=
    hcommands.instruct _
  obtain ⟨data, hpublishing⟩ := hinstructed.take rfl rfl
  have hhanded : Attainable w base childId (Server.messageQueue + 1) (Server.commandQueue + 1)
      { inbound := [g], relay := .publishing 0 data, envelopes := Server.messageQueue
        commands := Server.commandQueue } :=
    (hpublishing.report rfl g).hand rfl (Nat.zero_lt_succ _)
  have hgossip := pile_gossip (Nat.le_refl _) g (hhanded.receive rfl rfl)
  exact ⟨data, hgossip.report rfl g⟩

/-- A shard in that posture is deadlocked. -/
theorem deadlocked {g : InboundGossip} {m : Message} {id : Nat} {data : Bytes} {s : State}
    {r : ChildRelay.State} (h : Running me base actions s r) (hp : s.Has r p)
    (hnetwork : p.network = .handing g) (hinbound : p.inbound.length = Server.inboundQueue)
    (hreceiver : p.receiver = .delivering m) (henvelopes : p.envelopes = Server.messageQueue)
    (hrelay : p.relay = .publishing id data) (hcommands : p.commands = Server.commandQueue) :
    s.Deadlocked := by
  have hinboundLength := (congrArg List.length hp.inbound).trans hinbound
  have hinboundFull := h.inbound.not_hasRoom_iff.2 (Nat.le_of_eq hinboundLength.symm)
  have hdeliveryLength := hp.envelopes.trans henvelopes
  have hdeliveryFull := h.delivery.not_hasRoom_iff.2 (Nat.le_of_eq hdeliveryLength.symm)
  have hcommandsLength := hp.commands.trans hcommands
  have hcommandsFull := h.commands.not_hasRoom_iff.2 (Nat.le_of_eq hcommandsLength.symm)
  obtain ⟨happlication, hstage, -⟩ := hp.relay
  constructor
  case network => exact ⟨⟨g, hp.network.trans hnetwork⟩, hinboundFull⟩
  case receiver => exact ⟨⟨m, hp.receiver.trans hreceiver⟩, hdeliveryFull⟩
  case relay => exact ⟨⟨r, id, data, happlication, hstage.trans hrelay⟩, hcommandsFull⟩

end Attainable

/-- A shard that is not told to stop is stuck with work exactly if every task waits for room in the
queue of another, and then it stays so. This takes enough gossip and enough envelopes of the parent
to fill the queues, and no more than that can bring it about in every shard. -/
theorem stuck_iff_deadlocked (w : Worker) (base : String) (childId : UInt32) :
    (∀ actions s, Runs w base childId actions s →
      (s.hasWork ∧ ¬ s.canStep ↔ s.Deadlocked) ∧
      (s.Deadlocked →
        (Server.inboundQueue + Server.messageQueue + 2 ≤ actions.countP Action.isGossip ∧
          Server.commandQueue + 1 ≤ actions.countP Action.isInstruction) ∧
        ∀ more t, Reaches step Uncancelled s more t →
          t.Deadlocked ∧ ∀ a ∈ more, a.isInstruction = true)) ∧
    ∃ actions s, Runs w base childId actions s ∧ s.Deadlocked ∧
      actions.countP Action.isGossip = Server.inboundQueue + Server.messageQueue + 2 ∧
      actions.countP Action.isInstruction = Server.commandQueue + 1 := by
  constructor
  · intro actions s hrun
    obtain ⟨r, hr⟩ := hrun.running
    refine ⟨hr.stuck_iff, fun hdead => ⟨hr.needed hdead, ?_⟩⟩
    intro more t hmore
    exact hr.deadlocked_run hdead hmore
  · obtain ⟨data, actions, s, r, hrun, hr, hp, hgossip, hinstructions⟩ :=
      Attainable.jam w base childId
    refine ⟨actions, s, hrun, ?_, hgossip, hinstructions⟩
    exact Attainable.deadlocked hr hp rfl List.length_replicate rfl rfl rfl rfl

/-- A shard without bootstrap peers can get stuck with work. -/
theorem lonelyShard_stuck :
    ∃ w, Worker.spawn Startup.lonely Startup.desertIsland [] = .ok w ∧
      ∃ actions s, Runs w "soroban" 1 actions s ∧ s.hasWork ∧ ¬ s.canStep ∧
        ∀ more t, Reaches step Uncancelled s more t → ¬ t.canStep := by
  refine ⟨_, rfl, ?_⟩
  obtain ⟨hall, actions, s, hrun, hdead, -, -⟩ := stuck_iff_deadlocked _ "soroban" 1
  obtain ⟨hwork, hstuck⟩ := (hall actions s hrun).1.2 hdead
  refine ⟨actions, s, hrun, hwork, hstuck, ?_⟩
  intro more t hmore
  have hstays := (((hall actions s hrun).2 hdead).2 more t hmore).1
  exact ((hall (actions ++ more) t (hrun.trans hmore)).1.2 hstays).2

end NodeTasks

end GossipDirectory
