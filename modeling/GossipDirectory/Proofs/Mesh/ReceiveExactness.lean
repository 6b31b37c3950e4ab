import GossipDirectory.Mesh.ReceiveLoop
import GossipDirectory.Proofs.Collection.Runs

/-!
# What the receive loop hands over

The loop hands over what the gossip of others holds, in the order in which it came, and nothing
twice. At most one envelope that it took is not handed over yet: it waits for room, or the loop was
told to stop while it did.

## Implementation notes

The loop runs between a network that feeds it and a consumer that takes from its queue, both as fast
or slow as they like. What came and what was taken is noted beside the loop.
-/

namespace GossipDirectory

namespace ReceiveLoop

theorem accepted?_eq (me : PeerId) (g : InboundGossip) :
    accepted? me g = if g.forwarder = me ∨ g.author = some me then none
      else (Message.ofBytes g.data).toOption := by
  rw [accepted?]
  cases Message.ofBytes g.data <;> rfl

/-- Everything that the loop can do in a state, with what it leads to. -/
inductive Steps (s : State) : Action → State → Prop
  | stop : s.stage ≠ .ended → s.cancelled = true → Steps s .stop s.finish
  | accept (g : InboundGossip) (inbound : Channel InboundGossip) (m : Message) :
    s.stage = .listening → s.inbound.receive? = some (g, inbound) → accepted? s.me g = some m →
      Steps s .receive
        { s with inbound, consumed := s.consumed ++ [g], stage := .delivering m }
  | skip (g : InboundGossip) (inbound : Channel InboundGossip) :
    s.stage = .listening → s.inbound.receive? = some (g, inbound) → accepted? s.me g = none →
      Steps s .receive
        { s with inbound, consumed := s.consumed ++ [g], stage := .listening }
  | noticeEnd : s.stage = .listening → s.inbound.exhausted = true →
    Steps s .noticeEnd { s with stage := .retrying }
  | retry : s.stage = .retrying → Steps s .retry { s with stage := .listening }
  | deliver (m : Message) (delivery : Channel Message) : s.stage = .delivering m →
    s.delivery.send? m = some delivery →
      Steps s .deliver
        { s with delivery, delivered := s.delivered ++ [m], stage := .listening }
  | discard (m : Message) : s.stage = .delivering m → s.delivery.heard = false →
    Steps s .discard { s with stage := .listening }

theorem steps_of_step {s t : State} {a : Action} (h : step s a = some t) : Steps s a t := by
  cases a with
  | stop =>
      have hstop (hs : s.stage ≠ .ended)
          (h : (if s.cancelled then some s.finish else none) = some t) : Steps s .stop t := by
        split at h
        case isTrue hc =>
          cases h
          exact .stop hs hc
        case isFalse => cases h
      cases hs : s.stage with
      | ended => simp [step, hs] at h
      | _ => exact hstop (by simp [hs]) (by simpa only [step, hs] using h)
  | receive =>
      cases hs : s.stage with
      | listening =>
          simp only [step, hs, Option.map_eq_some_iff] at h
          obtain ⟨⟨g, inbound⟩, hreceive, ht⟩ := h
          cases haccepted : accepted? s.me g with
          | some m =>
              simp only [haccepted] at ht
              exact ht ▸ .accept g inbound m hs hreceive haccepted
          | none =>
              simp only [haccepted] at ht
              exact ht ▸ .skip g inbound hs hreceive haccepted
      | _ => simp [step, hs] at h
  | noticeEnd =>
      cases hs : s.stage with
      | listening =>
          simp only [step, hs] at h
          split at h
          case isTrue hended =>
            cases h
            exact .noticeEnd hs hended
          case isFalse => cases h
      | _ => simp [step, hs] at h
  | retry =>
      cases hs : s.stage with
      | retrying =>
          simp only [step, hs] at h
          cases h
          exact .retry hs
      | _ => simp [step, hs] at h
  | deliver =>
      cases hs : s.stage with
      | delivering m =>
          simp only [step, hs, Option.map_eq_some_iff] at h
          obtain ⟨delivery, hsend, rfl⟩ := h
          exact .deliver m delivery hs hsend
      | _ => simp [step, hs] at h
  | discard =>
      cases hs : s.stage with
      | delivering m =>
          simp only [step, hs] at h
          split at h
          case isTrue => cases h
          case isFalse hheard =>
            cases h
            exact .discard m hs (Bool.eq_false_iff.2 hheard)
      | _ => simp [step, hs] at h

/-! ## The loop between its neighbours -/

/-- The loop with what came to it and what was taken from it so far. -/
structure Exchange where
  loop : State
  arrived : List InboundGossip := []
  taken : List Message := []
  deriving DecidableEq

/-- What can happen to the loop. -/
inductive Event
  | loop (a : Action)
  /-- The network hands gossip over. -/
  | arrive (g : InboundGossip)
  /-- The network is gone. -/
  | closeInput
  /-- The consumer takes an envelope. -/
  | take
  /-- The loop is told to stop. -/
  | cancel

namespace Exchange

/-- A loop of the peer `me` that starts with empty queues. -/
def launch (me : PeerId) (inboundSize deliverySize : Nat) : Exchange where
  loop := { me, inbound := { capacity := inboundSize }, delivery := { capacity := deliverySize } }

/-- One step of the loop or of its neighbours. -/
def step (x : Exchange) : Event → Option Exchange
  | .loop a => (ReceiveLoop.step x.loop a).map fun loop => { x with loop }
  | .arrive g =>
    if x.loop.inbound.fed then
      (x.loop.inbound.send? g).map fun inbound =>
        { x with loop := { x.loop with inbound }, arrived := x.arrived ++ [g] }
    else none
  | .closeInput => some { x with loop := { x.loop with inbound := x.loop.inbound.closeInput } }
  | .take =>
    (x.loop.delivery.receive?).map fun (m, delivery) =>
      { x with loop := { x.loop with delivery }, taken := x.taken ++ [m] }
  | .cancel => some { x with loop := { x.loop with cancelled := true } }

/-- The envelopes that gossip brings to the peer `me`: what it neither forwarded nor wrote itself,
decoded. -/
def envelopes (me : PeerId) (gossip : List InboundGossip) : List Message :=
  (gossip.filter fun g => g.forwarder ≠ me ∧ g.author ≠ some me).filterMap fun g =>
    (Message.ofBytes g.data).toOption

theorem envelopes_append (me : PeerId) (before after : List InboundGossip) :
    envelopes me (before ++ after) = envelopes me before ++ envelopes me after := by
  rw [envelopes, List.filter_append, List.filterMap_append]
  rfl

theorem envelopes_singleton (me : PeerId) (g : InboundGossip) :
    envelopes me [g] = (accepted? me g).toList := by
  by_cases hown : g.forwarder = me ∨ g.author = some me
  · have hskipped : ¬ (g.forwarder ≠ me ∧ g.author ≠ some me) := fun h => hown.elim h.1 h.2
    rw [envelopes, accepted?_eq, if_pos hown, List.filter_cons_of_neg (by simpa using hskipped)]
    rfl
  · have hkept : g.forwarder ≠ me ∧ g.author ≠ some me := not_or.1 hown
    rw [envelopes, accepted?_eq, if_neg hown, List.filter_cons_of_pos (by simpa using hkept)]
    cases hdecoded : (Message.ofBytes g.data).toOption <;> simp [hdecoded]

/-- Gossip that was taken and whose envelope is not handed over: none, or the one that the loop
waits with or was stopped with. -/
inductive Held (me : PeerId) : Stage → List InboundGossip → Prop
  | none (stage : Stage) : (∀ m, stage ≠ .delivering m) → Held me stage []
  | waiting (g : InboundGossip) (m : Message) : envelopes me [g] = [m] →
    Held me (.delivering m) [g]
  | givenUp (g : InboundGossip) (m : Message) : envelopes me [g] = [m] → Held me .ended [g]

/-- What holds at every moment of a loop of the peer `me`. -/
structure Exact (me : PeerId) (x : Exchange) : Prop where
  self : x.loop.me = me
  heard : x.loop.delivery.heard = true
  arrived : ∃ rest, x.arrived = x.loop.consumed ++ rest ∧
    (x.loop.stage ≠ .ended → rest = x.loop.inbound.items)
  taken : x.loop.delivered = x.taken ++ x.loop.delivery.items
  delivered : ∃ before held, x.loop.consumed = before ++ held ∧
    x.loop.delivered = envelopes me before ∧ Held me x.loop.stage held
  cancelled : x.loop.stage = .ended → x.loop.cancelled = true

theorem exact_launch (me : PeerId) (inboundSize deliverySize : Nat) :
    Exact me (launch me inboundSize deliverySize) where
  self := rfl
  heard := rfl
  arrived := ⟨[], rfl, fun _ => rfl⟩
  taken := rfl
  delivered := ⟨[], [], rfl, rfl, .none _ fun _ => Stage.noConfusion⟩
  cancelled := Stage.noConfusion

theorem Held.eq_nil {me : PeerId} {stage : Stage} {held : List InboundGossip}
    (h : Held me stage held) (hwaiting : ∀ m, stage ≠ .delivering m) (hended : stage ≠ .ended) :
    held = [] := by
  cases h with
  | none => rfl
  | waiting g m => exact absurd rfl (hwaiting m)
  | givenUp g m => exact absurd rfl hended

theorem Held.ended {me : PeerId} {stage : Stage} {held : List InboundGossip}
    (h : Held me stage held) : Held me .ended held := by
  cases h with
  | none => exact .none _ fun _ => Stage.noConfusion
  | waiting g m hg => exact .givenUp g m hg
  | givenUp g m hg => exact .givenUp g m hg

section Preservation

variable {me : PeerId} {x y : Exchange}

/-- A loop that has no envelope in its hands handed over everything that it took. -/
theorem Exact.idle (h : Exact me x) (hwaiting : ∀ m, x.loop.stage ≠ .delivering m)
    (hended : x.loop.stage ≠ .ended) :
    x.arrived = x.loop.consumed ++ x.loop.inbound.items ∧
      x.loop.delivered = envelopes me x.loop.consumed := by
  obtain ⟨rest, harrived, hrest⟩ := h.arrived
  obtain ⟨before, held, hconsumed, hdelivered, hheld⟩ := h.delivered
  rw [hheld.eq_nil hwaiting hended, List.append_nil] at hconsumed
  exact ⟨hrest hended ▸ harrived, hconsumed ▸ hdelivered⟩

theorem Exact.loop {a : Action} {t : State} (h : Exact me x) (hs : Steps x.loop a t) :
    Exact me { x with loop := t } := by
  cases hs with
  | stop hstage hc =>
      obtain ⟨rest, harrived, -⟩ := h.arrived
      obtain ⟨before, held, hconsumed, hdelivered, hheld⟩ := h.delivered
      exact ⟨h.self, h.heard, ⟨rest, harrived, fun hne => absurd rfl hne⟩, h.taken,
        ⟨before, held, hconsumed, hdelivered, hheld.ended⟩, fun _ => hc⟩
  | accept g inbound m hstage hreceive haccepted =>
      obtain ⟨harrived, hdelivered⟩ := h.idle (by simp [hstage]) (by simp [hstage])
      have hbrought : envelopes me [g] = [m] := by
        rw [envelopes_singleton, ← h.self, haccepted]
        rfl
      refine ⟨h.self, h.heard, ⟨inbound.items, ?_, fun _ => rfl⟩, h.taken,
        ⟨x.loop.consumed, [g], rfl, hdelivered, .waiting g m hbrought⟩, Stage.noConfusion⟩
      simpa [(Channel.receive?_eq_some_iff.1 hreceive).1] using harrived
  | skip g inbound hstage hreceive haccepted =>
      obtain ⟨harrived, hdelivered⟩ := h.idle (by simp [hstage]) (by simp [hstage])
      have hbrought : envelopes me [g] = [] := by
        rw [envelopes_singleton, ← h.self, haccepted]
        rfl
      refine ⟨h.self, h.heard, ⟨inbound.items, ?_, fun _ => rfl⟩, h.taken,
        ⟨x.loop.consumed ++ [g], [], (List.append_nil _).symm, ?_,
          .none _ fun _ => Stage.noConfusion⟩, Stage.noConfusion⟩
      · simpa [(Channel.receive?_eq_some_iff.1 hreceive).1] using harrived
      · rw [envelopes_append, hbrought, List.append_nil]
        exact hdelivered
  | noticeEnd hstage hended =>
      obtain ⟨harrived, hdelivered⟩ := h.idle (by simp [hstage]) (by simp [hstage])
      exact ⟨h.self, h.heard, ⟨_, harrived, fun _ => rfl⟩, h.taken,
        ⟨_, [], (List.append_nil _).symm, hdelivered, .none _ fun _ => Stage.noConfusion⟩,
        Stage.noConfusion⟩
  | retry hstage =>
      obtain ⟨harrived, hdelivered⟩ := h.idle (by simp [hstage]) (by simp [hstage])
      exact ⟨h.self, h.heard, ⟨_, harrived, fun _ => rfl⟩, h.taken,
        ⟨_, [], (List.append_nil _).symm, hdelivered, .none _ fun _ => Stage.noConfusion⟩,
        Stage.noConfusion⟩
  | deliver m delivery hstage hsend =>
      obtain ⟨-, -, rfl⟩ := Channel.send?_eq_some_iff.1 hsend
      obtain ⟨rest, harrived, hrest⟩ := h.arrived
      obtain ⟨before, held, hconsumed, hdelivered, hheld⟩ := h.delivered
      rw [hstage] at hheld
      cases hheld with
      | none _ hne => exact absurd rfl (hne m)
      | waiting g _ hg =>
          refine ⟨h.self, h.heard, ⟨rest, harrived, fun _ => hrest (by simp [hstage])⟩, ?_,
            ⟨before ++ [g], [], ?_, ?_, .none _ fun _ => Stage.noConfusion⟩, Stage.noConfusion⟩
          · change x.loop.delivered ++ [m] = x.taken ++ (x.loop.delivery.items ++ [m])
            rw [h.taken, List.append_assoc]
          · simpa using hconsumed
          · change x.loop.delivered ++ [m] = envelopes me (before ++ [g])
            rw [envelopes_append, hg, hdelivered]
  | discard m hstage hgone =>
      rw [h.heard] at hgone
      cases hgone

theorem Exact.step {e : Event} (h : Exact me x) (hs : Exchange.step x e = some y) :
    Exact me y := by
  cases e with
  | loop a =>
      obtain ⟨t, ht, rfl⟩ := Option.map_eq_some_iff.1 hs
      exact h.loop (steps_of_step ht)
  | arrive g =>
      simp only [Exchange.step, Option.ite_none_right_eq_some, Option.map_eq_some_iff] at hs
      obtain ⟨-, inbound, hsend, rfl⟩ := hs
      obtain ⟨-, -, rfl⟩ := Channel.send?_eq_some_iff.1 hsend
      obtain ⟨rest, harrived, hrest⟩ := h.arrived
      refine ⟨h.self, h.heard, ⟨rest ++ [g], ?_, ?_⟩, h.taken, h.delivered, h.cancelled⟩
      · change x.arrived ++ [g] = x.loop.consumed ++ (rest ++ [g])
        rw [harrived, List.append_assoc]
      · intro hopen
        change rest ++ [g] = x.loop.inbound.items ++ [g]
        rw [hrest hopen]
  | closeInput =>
      cases hs
      exact ⟨h.self, h.heard, h.arrived, h.taken, h.delivered, h.cancelled⟩
  | take =>
      obtain ⟨⟨m, delivery⟩, hreceive, rfl⟩ := Option.map_eq_some_iff.1 hs
      obtain ⟨hitems, hdelivery⟩ := Channel.receive?_eq_some_iff.1 hreceive
      refine ⟨h.self, ?_, h.arrived, ?_, h.delivered, h.cancelled⟩
      · rw [hdelivery]
        exact h.heard
      · change x.loop.delivered = x.taken ++ [m] ++ delivery.items
        rw [h.taken, hitems, List.append_assoc]
        rfl
  | cancel =>
      cases hs
      exact ⟨h.self, h.heard, h.arrived, h.taken, h.delivered, fun _ => rfl⟩

end Preservation

/-- The loop and its neighbours, whatever they do. -/
def Runs (me : PeerId) (inboundSize deliverySize : Nat) : List Event → Exchange → Prop :=
  Reaches step (fun _ _ => True) (launch me inboundSize deliverySize)

section Runs

variable {me : PeerId} {inboundSize deliverySize : Nat} {events : List Event} {x : Exchange}

theorem Runs.exact (hrun : Runs me inboundSize deliverySize events x) : Exact me x := by
  induction hrun with
  | start => exact exact_launch me inboundSize deliverySize
  | step _ _ hs ih => exact ih.step hs

/-- Only a loop that was told to stop knows that it was. -/
theorem Runs.cancelled (hrun : Runs me inboundSize deliverySize events x)
    (hc : x.loop.cancelled = true) : Event.cancel ∈ events := by
  induction hrun with
  | start => cases hc
  | @step events x y e _ _ hs ih =>
      have hkept (hsame : y.loop.cancelled = x.loop.cancelled) :
          Event.cancel ∈ events ++ [e] :=
        List.mem_append_left _ (ih (hsame ▸ hc))
      cases e with
      | loop a =>
          obtain ⟨t, ht, rfl⟩ := Option.map_eq_some_iff.1 hs
          exact hkept (by cases steps_of_step ht <;> rfl)
      | arrive g =>
          simp only [Exchange.step, Option.ite_none_right_eq_some, Option.map_eq_some_iff] at hs
          obtain ⟨-, inbound, -, rfl⟩ := hs
          exact hkept rfl
      | closeInput =>
          cases hs
          exact hkept rfl
      | take =>
          obtain ⟨⟨m, delivery⟩, -, rfl⟩ := Option.map_eq_some_iff.1 hs
          exact hkept rfl
      | cancel => exact List.mem_append_right _ (List.mem_singleton_self _)

/-- A loop that has not returned goes on unless it waits for gossip or for room. -/
theorem Runs.goes_on (hrun : Runs me inboundSize deliverySize events x)
    (hopen : x.loop.stage ≠ .ended) :
    (∃ a, (ReceiveLoop.step x.loop a).isSome) ∨
      (x.loop.stage = .listening ∧ x.loop.inbound.items = [] ∧ x.loop.inbound.fed = true) ∨
      ∃ m, x.loop.stage = .delivering m ∧
        x.loop.delivery.capacity ≤ x.loop.delivery.items.length := by
  cases hstage : x.loop.stage with
  | ended => exact absurd hstage hopen
  | retrying =>
      left
      exact ⟨.retry, by simp [ReceiveLoop.step, hstage]⟩
  | listening =>
      cases hitems : x.loop.inbound.items with
      | cons g rest =>
          left
          exact ⟨.receive, by simp [ReceiveLoop.step, hstage, Channel.receive?, hitems]⟩
      | nil =>
          cases hfed : x.loop.inbound.fed with
          | true => exact Or.inr (Or.inl ⟨rfl, rfl, rfl⟩)
          | false =>
              left
              exact ⟨.noticeEnd,
                by simp [ReceiveLoop.step, hstage, Channel.exhausted, hitems, hfed]⟩
  | delivering m =>
      by_cases hroom : x.loop.delivery.items.length < x.loop.delivery.capacity
      · left
        have hsend : x.loop.delivery.send? m = some _ :=
          Channel.send?_eq_some_iff.2 ⟨hrun.exact.heard, hroom, rfl⟩
        exact ⟨.deliver, by simp [ReceiveLoop.step, hstage, hsend]⟩
      · exact Or.inr (Or.inr ⟨m, rfl, Nat.le_of_not_lt hroom⟩)

end Runs

/-- Whatever comes, whoever takes and whenever the loop is told to stop: what it took is what came
first, and what it handed over is what a first part of that brings to the peer, in order. The rest
is one accepted envelope at most, which waits for room or was given up. The loop returns only when
it was told to stop. -/
theorem delivered_exactly {me : PeerId} {inboundSize deliverySize : Nat} {events : List Event}
    {x : Exchange} (hrun : Runs me inboundSize deliverySize events x) :
    (x.loop.consumed <+: x.arrived ∧
      (x.loop.stage ≠ .ended → x.arrived = x.loop.consumed ++ x.loop.inbound.items)) ∧
    x.loop.delivered = x.taken ++ x.loop.delivery.items ∧
    (∃ before held, x.loop.consumed = before ++ held ∧
      x.loop.delivered = envelopes me before ∧
      (held = [] ∨ ∃ g m, held = [g] ∧ envelopes me [g] = [m] ∧
        (x.loop.stage = .delivering m ∨ x.loop.stage = .ended))) ∧
    (x.loop.stage = .ended → Event.cancel ∈ events) ∧
    (x.loop.stage ≠ .ended → (∃ a, (ReceiveLoop.step x.loop a).isSome) ∨
      (x.loop.stage = .listening ∧ x.loop.inbound.items = [] ∧ x.loop.inbound.fed = true) ∨
      ∃ m, x.loop.stage = .delivering m ∧
        x.loop.delivery.capacity ≤ x.loop.delivery.items.length) := by
  have hexact := hrun.exact
  obtain ⟨rest, harrived, hrest⟩ := hexact.arrived
  obtain ⟨before, held, hconsumed, hdelivered, hheld⟩ := hexact.delivered
  refine ⟨⟨⟨rest, harrived.symm⟩, fun hopen => hrest hopen ▸ harrived⟩, hexact.taken,
    ⟨before, held, hconsumed, hdelivered, ?_⟩,
    fun hended => hrun.cancelled (hexact.cancelled hended), hrun.goes_on⟩
  generalize hstage : x.loop.stage = stage at hheld
  cases hheld with
  | none => exact Or.inl rfl
  | waiting g m hg => exact Or.inr ⟨g, m, rfl, hg, Or.inl rfl⟩
  | givenUp g m hg => exact Or.inr ⟨g, m, rfl, hg, Or.inr rfl⟩

/-- An envelope without content. -/
def greeting : Message := { context := "greeting", payload := .null }

/-- Gossip that the peer `me` forwarded, that it wrote, that is no envelope, and two greetings. -/
def mixedGossip (me other : PeerId) : List InboundGossip :=
  [⟨me, none, greeting.toBytes⟩, ⟨other, some me, greeting.toBytes⟩, ⟨other, none, []⟩,
    ⟨other, none, greeting.toBytes⟩, ⟨other, some other, greeting.toBytes⟩]

/-- A queue of one envelope takes the first greeting; the second one waits and is given up. -/
theorem mixedGossip_delivered :
    ∃ events x, Runs ⟨0, [1]⟩ 8 1 events x ∧
      x.arrived = mixedGossip ⟨0, [1]⟩ ⟨0, [2]⟩ ∧ x.loop.stage = .ended ∧
      x.loop.delivered = [greeting] ∧ Event.cancel ∈ events ∧
      ∃ before g m, x.loop.consumed = before ++ [g] ∧
        x.loop.delivered = envelopes ⟨0, [1]⟩ before ∧ envelopes ⟨0, [1]⟩ [g] = [m] := by
  let gossip := mixedGossip ⟨0, [1]⟩ ⟨0, [2]⟩
  let events : List Event := gossip.map .arrive ++ List.replicate 4 (.loop .receive) ++
    [.loop .deliver, .loop .receive, .cancel, .loop .stop]
  let x : Exchange :=
    { arrived := gossip
      loop :=
        { me := ⟨0, [1]⟩
          inbound := { capacity := 8, heard := false }
          delivery := { capacity := 1, items := [greeting], fed := false }
          stage := .ended
          cancelled := true
          consumed := gossip
          delivered := [greeting] } }
  have hrun : Runs ⟨0, [1]⟩ 8 1 events x :=
    reaches_of_replay (fun _ _ => true) (fun _ _ _ => trivial) (by decide +kernel)
  obtain ⟨-, -, ⟨before, held, hconsumed, hdelivered, hheld⟩, hended, -⟩ := delivered_exactly hrun
  refine ⟨events, x, hrun, rfl, rfl, rfl, hended rfl, ?_⟩
  rcases hheld with rfl | ⟨g, m, rfl, hg, -⟩
  · have hall : envelopes ⟨0, [1]⟩ x.loop.consumed = [greeting, greeting] := by decide +kernel
    rw [List.append_nil] at hconsumed
    rw [hconsumed, ← hdelivered] at hall
    cases hall
  · exact ⟨before, g, m, hconsumed, hdelivered, hg⟩

end Exchange

end ReceiveLoop

end GossipDirectory
