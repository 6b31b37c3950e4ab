import GossipDirectory.Bus.ChildRelay
import GossipDirectory.Bus.ParentRelay
import GossipDirectory.Proofs.Bus.Subscriptions

/-!
# Steps of the relays

What the relay of a shard and the relay of the parent can do in a state, on a bus that refuses
nothing and on which their subscriptions are in place: neither of them fails, and neither returns
unless it was told to stop.
-/

namespace GossipDirectory

/-- The subjects below a base differ. -/
theorem Subjects.below_distinct (base : String) :
    (below base).children ≠ (below base).parent ∧ (below base).ready ≠ (below base).parent ∧
      (below base).ready ≠ (below base).children := by
  refine ⟨fun h => ?_, fun h => ?_, fun h => ?_⟩
  · have hlists := congrArg String.toList h
    simp [below] at hlists
  · have hlists := congrArg String.toList h
    simp [below] at hlists
  · have hlists := congrArg String.toList h
    simp [below] at hlists

namespace ChildRelay

/-- The subscription that a relay reads from. -/
def Stage.subscription? : Stage → Option Nat
  | .announcing id | .serving id | .publishing id _ => some id
  | .subscribing | .ended _ => none

/-- The subscription of the relay is in place. -/
def State.Subscribed (s : State) : Prop :=
  ∀ id, s.stage.subscription? = some id → s.bus.subject? id = some s.subjects.children

/-- A relay that hands over a text waits for room afterwards, or the text was not wanted. -/
theorem publishText_eq (s : State) (id : Nat) (text : String) :
    ∃ stage, s.publishText id text = { s with stage, handed := s.handed ++ [text] } ∧
      (stage = s.stage ∨ stage = .publishing id (Utf8.encode text)) := by
  unfold State.publishText Publisher.publish
  dsimp only
  by_cases htext : text = ""
  · rw [if_pos htext]
    exact ⟨_, rfl, Or.inl rfl⟩
  · rw [if_neg htext]
    by_cases hconnected : s.publisher.connected
    · rw [if_pos hconnected]
      exact ⟨_, rfl, Or.inr rfl⟩
    · rw [if_neg hconnected]
      exact ⟨_, rfl, Or.inl rfl⟩

/-- Everything that a relay can do in a state, with what it leads to. -/
inductive Steps (s : State) : Action → State → Prop
  | subscribe : s.stage = .subscribing →
    Steps s .subscribe
      { s with
        bus := (s.bus.subscribe s.subjects.children).2
        stage := .announcing s.bus.subscriptions.length }
  | announce (id : Nat) : s.stage = .announcing id →
    Steps s .announce
      { s with
        bus := (s.bus.publish s.subjects.ready (readyMessage s.childId).toBytes).2
        stage := .serving id }
  | stop (id : Nat) : s.stage = .serving id → s.cancelled = true →
    Steps s .stop (s.finish (some id) (.ok ()))
  | forward (id : Nat) (m : Message) (inbox : Channel Message) : s.stage = .serving id →
    s.inbox.receive? = some (m, inbox) →
      Steps s .forward
        { s with
          inbox
          bus := (s.bus.publish s.subjects.parent m.toBytes).2
          forwarded := s.forwarded ++ [m] }
  | skip (id : Nat) (data : Bytes) : s.stage = .serving id → s.bus.reading id = .data data →
    envelopeText? data = none →
      Steps s .take { s with bus := s.bus.advance id, taken := s.taken ++ [data] }
  | take (id : Nat) (data : Bytes) (text : String) (stage : Stage) : s.stage = .serving id →
    s.bus.reading id = .data data → envelopeText? data = some text →
      (stage = .serving id ∨ stage = .publishing id (Utf8.encode text)) →
        Steps s .take
          { s with
            bus := s.bus.advance id
            taken := s.taken ++ [data]
            handed := s.handed ++ [text]
            stage }
  | handOver (id : Nat) (data : Bytes) (outbox : Channel Command) :
    s.stage = .publishing id data → s.outbox.send? (.publish data) = some outbox →
      Steps s .handOver { s with outbox, stage := .serving id }
  | discard (id : Nat) (data : Bytes) : s.stage = .publishing id data → s.outbox.heard = false →
    Steps s .discard { s with stage := .serving id }

theorem steps_of_step {s t : State} {a : Action} (hb : s.bus.Sound) (hs : s.Subscribed)
    (h : step s a = some t) : Steps s a t := by
  cases a with
  | subscribe =>
      cases hstage : s.stage with
      | subscribing =>
          have hanswer :
              (s.bus.subscribe s.subjects.children).1 = .ok s.bus.subscriptions.length := by
            rw [hb.subscribe_eq]
          simp only [step, hstage, hanswer] at h
          cases h
          exact .subscribe hstage
      | _ => simp [step, hstage] at h
  | announce =>
      cases hstage : s.stage with
      | announcing id =>
          have hanswer :
              (s.bus.publish s.subjects.ready (readyMessage s.childId).toBytes).1 = .ok () := by
            rw [hb.publish_eq]
          simp only [step, hstage, hanswer] at h
          cases h
          exact .announce id hstage
      | _ => simp [step, hstage] at h
  | stop =>
      cases hstage : s.stage with
      | serving id =>
          simp only [step, hstage] at h
          split at h
          case isTrue hc =>
            cases h
            exact .stop id hstage hc
          case isFalse => cases h
      | _ => simp [step, hstage] at h
  | forward =>
      cases hstage : s.stage with
      | serving id =>
          simp only [step, hstage, Option.map_eq_some_iff] at h
          obtain ⟨⟨m, inbox⟩, hreceive, rfl⟩ := h
          exact hstage ▸ .forward id m inbox hstage hreceive
      | _ => simp [step, hstage] at h
  | take =>
      cases hstage : s.stage with
      | serving id =>
          simp only [step, hstage] at h
          cases hread : s.bus.reading id with
          | nothing => simp [hread] at h
          | ended =>
              have hsubject := hs id (by simp [hstage, Stage.subscription?])
              exact absurd hread (hb.reading_ne_ended hsubject)
          | data data =>
              simp only [hread] at h
              cases htext : envelopeText? data with
              | some text =>
                  simp only [htext] at h
                  obtain ⟨stage, heq, hstage'⟩ := publishText_eq
                    { s with bus := s.bus.advance id, taken := s.taken ++ [data] } id text
                  rw [hstage] at heq hstage'
                  rw [heq] at h
                  cases h
                  exact .take id data text stage hstage hread htext hstage'
              | none =>
                  simp only [htext] at h
                  cases h
                  exact hstage ▸ .skip id data hstage hread htext
      | _ => simp [step, hstage] at h
  | handOver =>
      cases hstage : s.stage with
      | publishing id data =>
          simp only [step, hstage, Option.map_eq_some_iff] at h
          obtain ⟨outbox, hsend, rfl⟩ := h
          exact .handOver id data outbox hstage hsend
      | _ => simp [step, hstage] at h
  | discard =>
      cases hstage : s.stage with
      | publishing id data =>
          simp only [step, hstage] at h
          split at h
          case isTrue => cases h
          case isFalse hheard =>
            cases h
            exact .discard id data hstage (Bool.eq_false_iff.2 hheard)
      | _ => simp [step, hstage] at h

namespace Steps

variable {s t : State} {a : Action}

theorem constant (h : Steps s a t) :
    t.subjects = s.subjects ∧ t.cancelled = s.cancelled ∧ t.publisher = s.publisher := by
  cases h <;> exact ⟨rfl, rfl, rfl⟩

/-- A relay that has returned does nothing more. -/
theorem result?_eq_none (h : Steps s a t) : s.result? = none := by
  cases h <;> simp [State.result?, *]

theorem extends_bus (h : Steps s a t) (hb : s.bus.Sound) : s.bus.Extends t.bus := by
  cases h with
  | subscribe hstage => exact hb.subscribe _
  | announce id hstage => exact hb.publish _ _
  | stop id hstage hc => exact hb.leave id
  | forward id m inbox hstage hreceive => exact hb.publish _ _
  | skip id data hstage hread htext => exact hb.advance id
  | take id data text stage hstage hread htext hnext => exact hb.advance id
  | handOver id data outbox hstage hsend => exact .refl hb
  | discard id data hstage hheard => exact .refl hb

/-- A relay reads from the subscription that it had, or from a new one. -/
theorem subscription? (h : Steps s a t) {id : Nat} (hid : t.stage.subscription? = some id) :
    s.stage.subscription? = some id ∨ (a = .subscribe ∧ id = s.bus.subscriptions.length) := by
  cases h with
  | subscribe hstage =>
      cases hid
      exact Or.inr ⟨rfl, rfl⟩
  | stop id' hstage hc => cases hid
  | take id' data text stage hstage hread htext hnext =>
      rw [hstage]
      rcases hnext with rfl | rfl
      · exact Or.inl hid
      · exact Or.inl hid
  | announce id' hstage => exact Or.inl (hstage ▸ hid)
  | handOver id' data outbox hstage hsend => exact Or.inl (hstage ▸ hid)
  | discard id' data hstage hheard => exact Or.inl (hstage ▸ hid)
  | forward id' m inbox hstage hreceive => exact Or.inl hid
  | skip id' data hstage hread htext => exact Or.inl hid

theorem subscribed (h : Steps s a t) (hb : s.bus.Sound) (hs : s.Subscribed) : t.Subscribed := by
  intro id hid
  rw [h.constant.1]
  rcases h.subscription? hid with hold | ⟨rfl, rfl⟩
  · exact (h.extends_bus hb).subject? _ _ (hs id hold)
  · cases h
    exact (Bus.listens_subscribe hb _).subject?

/-- A relay returns only because it was told to. -/
theorem result_eq (h : Steps s a t) {r : Except Failure Unit} (hr : t.result? = some r) :
    r = .ok () ∧ s.cancelled = true := by
  cases h with
  | stop id hstage hc =>
      cases hr
      exact ⟨rfl, hc⟩
  | take id data text stage hstage hread htext hnext =>
      rcases hnext with rfl | rfl
      · cases hr
      · cases hr
  | forward id m inbox hstage hreceive => simp [State.result?, hstage] at hr
  | skip id data hstage hread htext => simp [State.result?, hstage] at hr
  | subscribe hstage => cases hr
  | announce id hstage => cases hr
  | handOver id data outbox hstage hsend => cases hr
  | discard id data hstage hheard => cases hr

/-- The parent hears only of what a relay forwards. -/
theorem quiet (h : Steps s a t) (ha : a ≠ .forward) (hb : s.bus.Sound) (hs : s.Subscribed)
    (hchildren : s.subjects.children ≠ s.subjects.parent)
    (hready : s.subjects.ready ≠ s.subjects.parent) {id : Nat} {queue : List Bytes}
    (hl : s.bus.Listens id s.subjects.parent queue) :
    t.bus.Listens id s.subjects.parent queue := by
  have hother (id' : Nat) (hid' : s.stage.subscription? = some id') : id' ≠ id :=
    hl.ne_of_subject? (hs id' hid') hchildren
  cases h with
  | forward => exact absurd rfl ha
  | subscribe hstage => exact hl.subscribe hb _
  | announce id' hstage => exact hl.publish_of_ne hb hready _
  | stop id' hstage hc =>
      apply hl.leave_of_ne
      apply hother
      rw [hstage]
      rfl
  | skip id' data hstage hread htext =>
      apply hl.advance_of_ne
      apply hother
      rw [hstage]
      rfl
  | take id' data text stage hstage hread htext hnext =>
      apply hl.advance_of_ne
      apply hother
      rw [hstage]
      rfl
  | handOver id' data outbox hstage hsend => exact hl
  | discard id' data hstage hheard => exact hl

/-- An envelope leaves the inbox only to be forwarded, or when the relay returns. -/
theorem kept (h : Steps s a t) (ha : a ≠ .forward) :
    t.forwarded = s.forwarded ∧ (t.result? = none → t.inbox = s.inbox) := by
  cases h with
  | forward => exact absurd rfl ha
  | stop => exact ⟨rfl, nofun⟩
  | _ => exact ⟨rfl, fun _ => rfl⟩

end Steps

end ChildRelay

namespace ParentRelay

/-- The subscription that the relay reads envelopes from. -/
def Stage.subscription? : Stage → Option Nat
  | .subscribingReady id | .serving id _ => some id
  | .subscribing | .ended _ => none

/-- The subscription of the relay is in place. -/
def State.Subscribed (s : State) : Prop :=
  ∀ id, s.stage.subscription? = some id → s.bus.subject? id = some s.subjects.parent

/-- Everything that the relay can do in a state, with what it leads to. -/
inductive Steps (registry : Registry) (now : Millis) (s : State) : Action → State → Prop
  | subscribe : s.stage = .subscribing →
    Steps registry now s .subscribe
      { s with
        bus := (s.bus.subscribe s.subjects.parent).2
        stage := .subscribingReady s.bus.subscriptions.length }
  | subscribeReady (envelopes : Nat) : s.stage = .subscribingReady envelopes →
    Steps registry now s .subscribeReady
      { s with
        bus := (s.bus.subscribe s.subjects.ready).2
        stage := .serving envelopes s.bus.subscriptions.length }
  | stop (envelopes handshakes : Nat) : s.stage = .serving envelopes handshakes →
    s.cancelled = true →
      Steps registry now s .stop (s.finish [envelopes, handshakes] (.ok ()))
  | take (envelopes handshakes : Nat) (data : Bytes) : s.stage = .serving envelopes handshakes →
    s.bus.reading envelopes = .data data →
      Steps registry now s .take
        ({ s with bus := s.bus.advance envelopes }.receive registry now data)
  | greet (envelopes handshakes : Nat) (data : Bytes) : s.stage = .serving envelopes handshakes →
    s.bus.reading handshakes = .data data →
      Steps registry now s .greet { s with bus := s.bus.advance handshakes }

theorem steps_of_step {registry : Registry} {now : Millis} {s t : State} {a : Action}
    (hb : s.bus.Sound) (hs : s.Subscribed) (h : step registry now s a = some t) :
    Steps registry now s a t := by
  cases a with
  | subscribe =>
      cases hstage : s.stage with
      | subscribing =>
          have hanswer :
              (s.bus.subscribe s.subjects.parent).1 = .ok s.bus.subscriptions.length := by
            rw [hb.subscribe_eq]
          simp only [step, hstage, hanswer] at h
          cases h
          exact .subscribe hstage
      | _ => simp [step, hstage] at h
  | subscribeReady =>
      cases hstage : s.stage with
      | subscribingReady envelopes =>
          have hanswer :
              (s.bus.subscribe s.subjects.ready).1 = .ok s.bus.subscriptions.length := by
            rw [hb.subscribe_eq]
          simp only [step, hstage, hanswer] at h
          cases h
          exact .subscribeReady envelopes hstage
      | _ => simp [step, hstage] at h
  | stop =>
      cases hstage : s.stage with
      | serving envelopes handshakes =>
          simp only [step, hstage] at h
          split at h
          case isTrue hc =>
            cases h
            exact .stop envelopes handshakes hstage hc
          case isFalse => cases h
      | _ => simp [step, hstage] at h
  | take =>
      cases hstage : s.stage with
      | serving envelopes handshakes =>
          simp only [step, hstage] at h
          cases hread : s.bus.reading envelopes with
          | nothing => simp [hread] at h
          | ended =>
              have hsubject := hs envelopes (by simp [hstage, Stage.subscription?])
              exact absurd hread (hb.reading_ne_ended hsubject)
          | data data =>
              simp only [hread] at h
              cases h
              exact hstage ▸ .take envelopes handshakes data hstage hread
      | _ => simp [step, hstage] at h
  | greet =>
      cases hstage : s.stage with
      | serving envelopes handshakes =>
          simp only [step, hstage] at h
          split at h
          case h_1 data hread =>
            cases h
            exact hstage ▸ .greet envelopes handshakes data hstage hread
          case h_2 => cases h
      | _ => simp [step, hstage] at h

namespace Steps

variable {registry : Registry} {now : Millis} {s t : State} {a : Action}

theorem constant (h : Steps registry now s a t) :
    t.subjects = s.subjects ∧ t.cancelled = s.cancelled := by
  cases h with
  | take envelopes handshakes data hstage hread =>
      unfold State.receive
      split <;> exact ⟨rfl, rfl⟩
  | _ => exact ⟨rfl, rfl⟩

theorem extends_bus (h : Steps registry now s a t) (hb : s.bus.Sound) : s.bus.Extends t.bus := by
  cases h with
  | subscribe hstage => exact hb.subscribe _
  | subscribeReady envelopes hstage => exact hb.subscribe _
  | stop envelopes handshakes hstage hc =>
      have hleft := hb.leave envelopes
      exact hleft.trans (hleft.sound.leave handshakes)
  | take envelopes handshakes data hstage hread =>
      unfold State.receive
      split <;> exact hb.advance envelopes
  | greet envelopes handshakes data hstage hread => exact hb.advance handshakes

/-- The relay returns only because it was told to. -/
theorem result_eq (h : Steps registry now s a t) {r : Except Failure Unit}
    (hr : t.result? = some r) : r = .ok () ∧ s.cancelled = true := by
  cases h with
  | stop envelopes handshakes hstage hc =>
      cases hr
      exact ⟨rfl, hc⟩
  | take envelopes handshakes data hstage hread =>
      unfold State.receive at hr
      split at hr <;> simp [State.result?, hstage] at hr
  | greet envelopes handshakes data hstage hread => simp [State.result?, hstage] at hr
  | subscribe hstage => cases hr
  | subscribeReady envelopes hstage => cases hr

end Steps

end ParentRelay

end GossipDirectory
