import GossipDirectory.Bus.Fleet
import GossipDirectory.Mesh.Tasks
import GossipDirectory.Proofs.Bus.RelaySteps
import GossipDirectory.Proofs.Collection.Runs
import GossipDirectory.Proofs.Mesh.ReceiveExactness
import GossipDirectory.Proofs.Mesh.StartupDeadlock

/-!
# Runs of a shard

What the tasks of a running shard can do, and what holds as long as the shard is not told to stop:
no task returns, every queue keeps its two ends, and what the tasks hold has come from the room or
from the parent.
-/

namespace GossipDirectory

/-- A queue between the same tasks, which are both there or not. -/
def Channel.SameEnds {α : Type} (c d : Channel α) : Prop :=
  d.capacity = c.capacity ∧ d.heard = c.heard ∧ d.fed = c.fed

namespace Channel.SameEnds

variable {α : Type} {c d e : Channel α}

theorem refl (c : Channel α) : SameEnds c c :=
  ⟨rfl, rfl, rfl⟩

theorem trans (h : SameEnds c d) (h' : SameEnds d e) : SameEnds c e :=
  ⟨h'.1.trans h.1, h'.2.1.trans h.2.1, h'.2.2.trans h.2.2⟩

theorem of_send? {x : α} (h : c.send? x = some d) : SameEnds c d := by
  rw [(Channel.send?_eq_some_iff.1 h).2.2]
  exact ⟨rfl, rfl, rfl⟩

theorem of_receive? {x : α} (h : c.receive? = some (x, d)) : SameEnds c d := by
  rw [(Channel.receive?_eq_some_iff.1 h).2]
  exact ⟨rfl, rfl, rfl⟩

section Room

variable {capacity : Nat} (h : SameEnds { capacity } c)
include h

theorem not_hasRoom_iff : c.hasRoom = false ↔ capacity ≤ c.items.length := by
  have hcapacity : c.capacity = capacity := h.1
  simp [Channel.hasRoom, hcapacity]

theorem hasRoom_iff : c.hasRoom = true ↔ c.items.length < capacity := by
  rw [← Bool.not_eq_false, h.not_hasRoom_iff, Nat.not_le]

theorem send?_eq (hroom : c.items.length < capacity) (x : α) :
    c.send? x = some { c with items := c.items ++ [x] } :=
  Channel.send?_eq_some_iff.2 ⟨h.2.1, h.1.symm ▸ hroom, rfl⟩

theorem ne_nil_of_not_hasRoom (hpositive : 0 < capacity) (hroom : c.hasRoom = false) :
    c.items ≠ [] := by
  intro hitems
  rw [h.not_hasRoom_iff, hitems] at hroom
  exact absurd hroom (Nat.not_le.2 hpositive)

end Room

end Channel.SameEnds

theorem Channel.length_of_send? {α : Type} {c d : Channel α} {x : α} (h : c.send? x = some d) :
    d.items.length = c.items.length + 1 := by
  rw [(Channel.send?_eq_some_iff.1 h).2.2]
  exact List.length_append

theorem Channel.length_of_receive? {α : Type} {c d : Channel α} {x : α}
    (h : c.receive? = some (x, d)) : c.items.length = d.items.length + 1 := by
  rw [(Channel.receive?_eq_some_iff.1 h).1]
  rfl

/-! ## Tasks that are not told to stop -/

namespace NetworkTask

/-- Gossip reaches the node. -/
def Action.isGossip : Action → Bool
  | .report _ _ (.gossip _) => true
  | _ => false

variable {s t : State} {a : Action}

theorem Steps.ends (h : Steps s a t) (hc : s.cancelled = false) :
    s.commands.SameEnds t.commands ∧ s.inbound.SameEnds t.inbound ∧ t.stage ≠ .ended := by
  cases h with
  | stop hstage htold =>
      rw [hc] at htold
      cases htold
  | command answer c commands hstage hreceive =>
      exact ⟨.of_receive? hreceive, .refl _, hstage ▸ Stage.noConfusion⟩
  | gossip => exact ⟨.refl _, .refl _, Stage.noConfusion⟩
  | report now meshPeers event hstage => exact ⟨.refl _, .refl _, hstage ▸ Stage.noConfusion⟩
  | advertise query hstage => exact ⟨.refl _, .refl _, hstage ▸ Stage.noConfusion⟩
  | trim now meshPeers hstage => exact ⟨.refl _, .refl _, hstage ▸ Stage.noConfusion⟩
  | hand g inbound hstage hsend => exact ⟨.refl _, .of_send? hsend, Stage.noConfusion⟩
  | discard => exact ⟨.refl _, .refl _, Stage.noConfusion⟩

/-- Only gossip from outside adds to the gossip that is held, and nothing adds to the commands. -/
theorem Steps.held_le (h : Steps s a t) :
    t.commands.items.length ≤ s.commands.items.length ∧
      t.stage.inHand + t.inbound.items.length ≤
        s.stage.inHand + s.inbound.items.length + a.isGossip.toNat := by
  cases h with
  | stop hstage htold =>
      refine ⟨Nat.zero_le _, ?_⟩
      simp only [State.finish, Channel.closeInput, Stage.inHand]
      omega
  | command answer c commands hstage hreceive =>
      have hlength := Channel.length_of_receive? hreceive
      exact ⟨by simp only [State.did]; omega, Nat.le_add_right _ _⟩
  | gossip now meshPeers g hstage =>
      refine ⟨Nat.le_refl _, ?_⟩
      rw [hstage]
      simp only [Stage.inHand, Action.isGossip, Bool.toNat_true]
      omega
  | report => exact ⟨Nat.le_refl _, Nat.le_add_right _ _⟩
  | advertise => exact ⟨Nat.le_refl _, Nat.le_add_right _ _⟩
  | trim => exact ⟨Nat.le_refl _, Nat.le_add_right _ _⟩
  | hand g inbound hstage hsend =>
      have hlength := Channel.length_of_send? hsend
      refine ⟨Nat.le_refl _, ?_⟩
      rw [hstage, hlength]
      simp only [Stage.inHand]
      omega
  | discard g hstage =>
      refine ⟨Nat.le_refl _, ?_⟩
      rw [hstage]
      simp only [Stage.inHand]
      omega

end NetworkTask

namespace ReceiveLoop

/-- How much gossip the loop has in its hands. -/
def Stage.inHand : Stage → Nat
  | .delivering _ => 1
  | _ => 0

variable {s t : State} {a : Action}

theorem Steps.ends (h : Steps s a t) (hc : s.cancelled = false) :
    s.inbound.SameEnds t.inbound ∧ s.delivery.SameEnds t.delivery ∧ t.stage ≠ .ended ∧
      t.me = s.me := by
  cases h with
  | stop hstage htold =>
      rw [hc] at htold
      cases htold
  | accept g inbound m hstage hreceive =>
      exact ⟨.of_receive? hreceive, .refl _, Stage.noConfusion, rfl⟩
  | skip g inbound hstage hreceive =>
      exact ⟨.of_receive? hreceive, .refl _, Stage.noConfusion, rfl⟩
  | noticeEnd => exact ⟨.refl _, .refl _, Stage.noConfusion, rfl⟩
  | retry => exact ⟨.refl _, .refl _, Stage.noConfusion, rfl⟩
  | deliver m delivery hstage hsend =>
      exact ⟨.refl _, .of_send? hsend, Stage.noConfusion, rfl⟩
  | discard => exact ⟨.refl _, .refl _, Stage.noConfusion, rfl⟩

/-- The loop passes on what it takes, or less. -/
theorem Steps.held_le (h : Steps s a t) :
    t.inbound.items.length + t.stage.inHand + t.delivery.items.length ≤
      s.inbound.items.length + s.stage.inHand + s.delivery.items.length := by
  cases h with
  | stop hstage htold =>
      simp only [State.finish, Channel.closeOutput, Channel.closeInput, Stage.inHand,
        List.length_nil]
      omega
  | accept g inbound m hstage hreceive =>
      have hlength := Channel.length_of_receive? hreceive
      simp only [Stage.inHand]
      omega
  | skip g inbound hstage hreceive =>
      have hlength := Channel.length_of_receive? hreceive
      simp only [Stage.inHand]
      omega
  | noticeEnd hstage =>
      simp only [Stage.inHand]
      omega
  | retry hstage =>
      simp only [Stage.inHand]
      omega
  | deliver m delivery hstage hsend =>
      have hlength := Channel.length_of_send? hsend
      simp only [hstage, Stage.inHand]
      omega
  | discard m hstage =>
      simp only [Stage.inHand]
      omega

end ReceiveLoop

namespace ChildRelay

/-- How many publications the relay has in its hands. -/
def Stage.inHand : Stage → Nat
  | .publishing _ _ => 1
  | _ => 0

/-- This waits for the relay on the bus, if it has subscribed. -/
def State.Hears (s : State) (queue : List Bytes) : Prop :=
  ∀ id, s.stage.subscription? = some id → s.bus.Listens id s.subjects.children queue

variable {s t : State} {a : Action}

theorem Steps.ends (h : Steps s a t) (hc : s.cancelled = false) :
    s.inbox.SameEnds t.inbox ∧ s.outbox.SameEnds t.outbox ∧ t.result? = none ∧
      t.inbox.items.length ≤ s.inbox.items.length := by
  have hopen : t.result? = none := by
    cases hresult : t.result? with
    | none => rfl
    | some r =>
        have htold := (h.result_eq hresult).2
        rw [hc] at htold
        cases htold
  cases h with
  | stop id hstage htold =>
      rw [hc] at htold
      cases htold
  | forward id m inbox hstage hreceive =>
      have hlength := Channel.length_of_receive? hreceive
      exact ⟨.of_receive? hreceive, .refl _, hopen, by dsimp only; omega⟩
  | handOver id data outbox hstage hsend =>
      exact ⟨.refl _, .of_send? hsend, hopen, Nat.le_refl _⟩
  | _ => exact ⟨.refl _, .refl _, hopen, Nat.le_refl _⟩

/-- The relay publishes what it takes, or less. -/
theorem Steps.hears (h : Steps s a t) (hb : s.bus.Sound) (hc : s.cancelled = false)
    (hparent : s.subjects.parent ≠ s.subjects.children)
    (hready : s.subjects.ready ≠ s.subjects.children) {queue : List Bytes}
    (hl : s.Hears queue) :
    ∃ queue', t.Hears queue' ∧ t.outbox.items.length + t.stage.inHand + queue'.length ≤
      s.outbox.items.length + s.stage.inHand + queue.length := by
  cases h with
  | subscribe hstage =>
      refine ⟨[], ?_, ?_⟩
      · intro id hid
        cases hid
        exact Bus.listens_subscribe hb _
      · simp [hstage, Stage.inHand]
  | announce id hstage =>
      refine ⟨queue, ?_, ?_⟩
      · intro id' hid
        exact (hl id' (hstage ▸ hid)).publish_of_ne hb hready _
      · simp [hstage, Stage.inHand]
  | stop id hstage htold =>
      rw [hc] at htold
      cases htold
  | forward id m inbox hstage hreceive =>
      exact ⟨queue, fun id' hid => (hl id' hid).publish_of_ne hb hparent _, Nat.le_refl _⟩
  | skip id data hstage hread =>
      have hserving := hl id (by rw [hstage]; rfl)
      obtain ⟨rest, rfl⟩ := hserving.eq_cons_of_reading hread
      refine ⟨rest, ?_, ?_⟩
      · intro id' hid
        cases (hstage ▸ hid : (Stage.serving id).subscription? = some id')
        exact hserving.advance_self
      · simp only [List.length_cons]
        omega
  | take id data text stage hstage hread htext hnext =>
      have hserving := hl id (by rw [hstage]; rfl)
      obtain ⟨rest, rfl⟩ := hserving.eq_cons_of_reading hread
      refine ⟨rest, ?_, ?_⟩
      · intro id' hid
        rcases hnext with rfl | rfl
        · cases hid
          exact hserving.advance_self
        · cases hid
          exact hserving.advance_self
      · rcases hnext with rfl | rfl
        · simp only [Stage.inHand, List.length_cons]
          omega
        · simp only [Stage.inHand, List.length_cons]
          omega
  | handOver id data outbox hstage hsend =>
      have hlength := Channel.length_of_send? hsend
      refine ⟨queue, ?_, ?_⟩
      · intro id' hid
        exact hl id' (hstage ▸ hid)
      · simp only [hstage, hlength, Stage.inHand]
        omega
  | discard id data hstage =>
      refine ⟨queue, ?_, ?_⟩
      · intro id' hid
        exact hl id' (hstage ▸ hid)
      · simp only [Stage.inHand]
        omega

end ChildRelay

namespace NodeTasks

/-- The tasks of a shard that has just started, around the worker of its network. -/
def State.shard (w : Worker) (base : String) (childId : UInt32) : State :=
  .afterStart
    { worker := w
      commands := { capacity := Server.commandQueue }
      inbound := { capacity := Server.inboundQueue } }
    { capacity := Server.messageQueue }
    none
    (.relay (Fleet.shard base childId Server.messageQueue Server.commandQueue))

/-- A relay with the queues in force. -/
def State.relayTask (s : State) (r : ChildRelay.State) : ChildRelay.State :=
  { r with inbox := s.delivery, outbox := s.commands, cancelled := s.cancelled }

/-- Everything that can happen to the tasks of a shard with a relay, with what it leads to. -/
inductive Steps (s : State) (r : ChildRelay.State) : Action → State → Prop
  | network {a : NetworkTask.Action} {t : NetworkTask.State} : NetworkTask.Steps s.networkTask a t →
    Steps s r (.network a) { s with network := t, commands := t.commands, inbound := t.inbound }
  | receive {a : ReceiveLoop.Action} {t : ReceiveLoop.State} : ReceiveLoop.Steps s.receiveLoop a t →
    Steps s r (.receive a)
      { s with
        receiver := t
        inbound := t.inbound
        delivery := { t.delivery with fed := s.delivery.fed } }
  | relay {a : ChildRelay.Action} {t : ChildRelay.State} : ChildRelay.Steps (s.relayTask r) a t →
    Steps s r (.relay a)
      { s with application := .relay t, delivery := t.inbox, commands := t.outbox }
  | instruct (data : Bytes) :
    Steps s r (.instruct data)
      { s with application := .relay { r with bus := r.bus.spread r.subjects.children data } }
  | cancel : Steps s r .cancel { s with cancelled := true }

theorem steps_of_step {s t : State} {r : ChildRelay.State} {a : Action}
    (hrelay : s.application = .relay r) (hsnapshots : s.snapshots = none) (hb : r.bus.Sound)
    (hr : r.Subscribed) (h : step s a = some t) : Steps s r a t := by
  cases a with
  | network a =>
      obtain ⟨t, ht, rfl⟩ := Option.map_eq_some_iff.1 h
      exact .network (NetworkTask.steps_of_step ht)
  | receive a =>
      obtain ⟨t, ht, rfl⟩ := Option.map_eq_some_iff.1 h
      exact .receive (ReceiveLoop.steps_of_step ht)
  | snapshot a => simp [step, State.stepSnapshots, hsnapshots] at h
  | consume now a => simp [step, State.stepConsumer, hrelay] at h
  | relay a =>
      simp only [step, State.stepRelay, hrelay, Option.map_eq_some_iff] at h
      obtain ⟨t, ht, rfl⟩ := h
      exact .relay (ChildRelay.steps_of_step hb hr ht)
  | instruct data =>
      simp only [step, State.instructed, hrelay] at h
      cases h
      exact .instruct data
  | cancel =>
      cases h
      exact .cancel

/-- Gossip reaches the node. -/
def Action.isGossip : Action → Bool
  | .network a => a.isGossip
  | _ => false

/-- The parent sends bytes to its shards. -/
def Action.isInstruction : Action → Bool
  | .instruct _ => true
  | _ => false

/-- How much gossip, and how many envelopes made of it, are held before the relay. -/
def State.held (s : State) : Nat :=
  s.network.stage.inHand + s.inbound.items.length + s.receiver.stage.inHand +
    s.delivery.items.length

/-- What holds of the tasks of a shard with a relay, after some actions, as long as it is not told
to stop. -/
structure Running (me : PeerId) (base : String) (actions : List Action) (s : State)
    (r : ChildRelay.State) : Prop where
  relay : s.application = .relay r
  snapshots : s.snapshots = none
  uncancelled : s.cancelled = false
  bus : r.bus.Sound
  named : r.subjects = .below base
  publisher : r.publisher.connected = true
  self : s.receiver.me = me
  network : s.network.stage ≠ .ended
  receiver : s.receiver.stage ≠ .ended
  relaying : r.result? = none
  commands : Channel.SameEnds { capacity := Server.commandQueue } s.commands
  inbound : Channel.SameEnds { capacity := Server.inboundQueue } s.inbound
  delivery : Channel.SameEnds { capacity := Server.messageQueue } s.delivery
  held : s.held ≤ actions.countP Action.isGossip
  instructed : ∃ queue, r.Hears queue ∧
    s.commands.items.length + r.stage.inHand + queue.length ≤ actions.countP Action.isInstruction

theorem running_shard (w : Worker) (base : String) (childId : UInt32) :
    Running w.me base [] (.shard w base childId)
      (Fleet.shard base childId Server.messageQueue Server.commandQueue) where
  relay := rfl
  snapshots := rfl
  uncancelled := rfl
  bus := Bus.sound_empty
  named := rfl
  publisher := rfl
  self := rfl
  network := NetworkTask.Stage.noConfusion
  receiver := ReceiveLoop.Stage.noConfusion
  relaying := rfl
  commands := .refl _
  inbound := .refl _
  delivery := .refl _
  held := Nat.le_refl _
  instructed := by
    refine ⟨[], ?_, Nat.le_refl _⟩
    intro id hid
    cases hid

theorem countP_snoc (p : Action → Bool) (actions : List Action) (a : Action) :
    (actions ++ [a]).countP p = actions.countP p + (p a).toNat := by
  rw [List.countP_append, List.countP_singleton]
  cases p a <;> rfl

namespace Running

variable {me : PeerId} {base : String} {actions : List Action} {s t : State}
  {r : ChildRelay.State}

theorem subscribed (h : Running me base actions s r) : r.Subscribed := by
  obtain ⟨queue, hlistens, -⟩ := h.instructed
  exact fun id hid => (hlistens id hid).subject?

theorem networkStep {a : NetworkTask.Action} {t : NetworkTask.State}
    (h : Running me base actions s r) (hs : NetworkTask.Steps s.networkTask a t) :
    Running me base (actions ++ [.network a])
      { s with network := t, commands := t.commands, inbound := t.inbound } r := by
  obtain ⟨hcommands, hinbound, hstage⟩ := hs.ends h.uncancelled
  obtain ⟨hless, hheld⟩ := hs.held_le
  refine
    { h with
      network := hstage
      commands := h.commands.trans hcommands
      inbound := h.inbound.trans hinbound
      held := ?_
      instructed := ?_ }
  · have hbefore := h.held
    rw [countP_snoc]
    unfold State.held at hbefore ⊢
    simp only [State.networkTask, Action.isGossip] at hheld ⊢
    omega
  · obtain ⟨queue, hhears, hbefore⟩ := h.instructed
    refine ⟨queue, hhears, ?_⟩
    rw [countP_snoc]
    change t.commands.items.length ≤ s.commands.items.length at hless
    dsimp only
    omega

theorem receiverStep {a : ReceiveLoop.Action} {t : ReceiveLoop.State}
    (h : Running me base actions s r) (hs : ReceiveLoop.Steps s.receiveLoop a t) :
    Running me base (actions ++ [.receive a])
      { s with
        receiver := t
        inbound := t.inbound
        delivery := { t.delivery with fed := s.delivery.fed } } r := by
  obtain ⟨hinbound, hdelivery, hstage, hself⟩ := hs.ends h.uncancelled
  have hheld := hs.held_le
  refine
    { h with
      self := hself.trans h.self
      receiver := hstage
      inbound := h.inbound.trans hinbound
      delivery := h.delivery.trans ⟨hdelivery.1, hdelivery.2.1, rfl⟩
      held := ?_
      instructed := ?_ }
  · have hbefore := h.held
    rw [countP_snoc]
    unfold State.held at hbefore ⊢
    simp only [State.receiveLoop] at hheld ⊢
    omega
  · rw [countP_snoc]
    exact h.instructed

theorem relayStep {a : ChildRelay.Action} {t : ChildRelay.State}
    (h : Running me base actions s r) (hs : ChildRelay.Steps (s.relayTask r) a t) :
    Running me base (actions ++ [.relay a])
      { s with application := .relay t, delivery := t.inbox, commands := t.outbox } t := by
  obtain ⟨hsubjects, -, hpublisher⟩ := hs.constant
  obtain ⟨hinbox, houtbox, hopen, hless⟩ := hs.ends h.uncancelled
  have hnames := Subjects.below_distinct base
  rw [← h.named] at hnames
  refine
    { h with
      relay := rfl
      bus := (hs.extends_bus h.bus).sound
      named := hsubjects.trans h.named
      publisher := hpublisher ▸ h.publisher
      relaying := hopen
      commands := h.commands.trans houtbox
      delivery := h.delivery.trans hinbox
      held := ?_
      instructed := ?_ }
  · have hbefore := h.held
    rw [countP_snoc]
    unfold State.held at hbefore ⊢
    change t.inbox.items.length ≤ s.delivery.items.length at hless
    dsimp only
    omega
  · obtain ⟨queue, hhears, hbefore⟩ := h.instructed
    obtain ⟨queue', hhears', hafter⟩ := hs.hears h.bus h.uncancelled hnames.1.symm hnames.2.2 hhears
    refine ⟨queue', hhears', ?_⟩
    rw [countP_snoc]
    exact Nat.le_add_right_of_le (Nat.le_trans hafter hbefore)

theorem instructStep (h : Running me base actions s r) (data : Bytes) :
    Running me base (actions ++ [.instruct data])
      { s with application := .relay { r with bus := r.bus.spread r.subjects.children data } }
      { r with bus := r.bus.spread r.subjects.children data } := by
  refine
    { h with
      relay := rfl
      bus := (h.bus.spread _ data).sound
      named := h.named
      publisher := h.publisher
      relaying := h.relaying
      held := ?_
      instructed := ?_ }
  · rw [countP_snoc]
    exact h.held
  · obtain ⟨queue, hhears, hbefore⟩ := h.instructed
    refine ⟨queue ++ [data], fun id hid => (hhears id hid).spread_self h.bus data, ?_⟩
    rw [countP_snoc, List.length_append, List.length_singleton]
    simp only [Action.isInstruction, Bool.toNat_true]
    omega

theorem step {a : Action} (h : Running me base actions s r) (ha : a ≠ .cancel)
    (hs : Steps s r a t) : ∃ r', Running me base (actions ++ [a]) t r' := by
  cases hs with
  | network hs => exact ⟨r, h.networkStep hs⟩
  | receive hs => exact ⟨r, h.receiverStep hs⟩
  | relay hs => exact ⟨_, h.relayStep hs⟩
  | instruct data => exact ⟨_, h.instructStep data⟩
  | cancel => exact absurd rfl ha

end Running

/-- Nobody tells the shard to stop. -/
def Uncancelled (_ : State) (a : Action) : Prop :=
  a ≠ .cancel

/-- A shard that has started and was not told to stop, after some actions. -/
def Runs (w : Worker) (base : String) (childId : UInt32) : List Action → State → Prop :=
  Reaches step Uncancelled (.shard w base childId)

section Runs

variable {w : Worker} {base : String} {childId : UInt32} {actions : List Action} {s : State}

theorem Runs.running (hrun : Runs w base childId actions s) :
    ∃ r, Running w.me base actions s r := by
  induction hrun with
  | start => exact ⟨_, running_shard w base childId⟩
  | step _ ha ht ih =>
      obtain ⟨r, hr⟩ := ih
      exact hr.step ha (steps_of_step hr.relay hr.snapshots hr.bus hr.subscribed ht)

end Runs

end NodeTasks

end GossipDirectory
