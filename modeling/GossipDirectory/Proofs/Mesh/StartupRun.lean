import GossipDirectory.Mesh.Startup
import GossipDirectory.Proofs.Collection.Outcome
import GossipDirectory.Proofs.Swarm.Replies
import GossipDirectory.Server.Modes

/-!
# Runs of a start

What a start can do in a state, which states it comes to, and what holds in all of them: a dial that
has been sent is known to the network task until the dial is over, and one that has not is not.

## Implementation notes

The reply of a dial is its position among the dials. Runs carry their actions, so that what has
happened can be counted.
-/

namespace GossipDirectory

/-- The dials of the bootstrap peers answer to nobody. -/
theorem Worker.pendingDials_meetBootstrap {w : Worker} (h : w.pendingDials = []) (m : Machine)
    (entry : (PeerId × Multiaddr) × ConnectionId) :
    (meetBootstrap m w entry).pendingDials = [] := by
  obtain ⟨⟨peer, address⟩, id⟩ := entry
  unfold meetBootstrap
  dsimp only
  split
  · exact h
  · apply pendingDials_handleEvent_of_nil
    exact pendingDials_handleEvent_of_nil h _ _ _

/-- A network task starts without requests that wait for it. -/
theorem Worker.pendingDials_spawn {settings : SwarmSettings} {m : Machine} {draws : List Nat}
    {w : Worker} (h : Worker.spawn settings m draws = .ok w) : w.pendingDials = [] := by
  have hfold (peers : List ((PeerId × Multiaddr) × ConnectionId)) (w : Worker)
      (hw : w.pendingDials = []) : (peers.foldl (meetBootstrap m) w).pendingDials = [] := by
    induction peers generalizing w with
    | nil => exact hw
    | cons entry rest ih => exact ih _ (pendingDials_meetBootstrap hw m entry)
  unfold spawn at h
  obtain ⟨connections, -, h⟩ := bind_eq_ok.1 h
  obtain ⟨-, -, h⟩ := bind_eq_ok.1 h
  obtain ⟨dht, -, h⟩ := bind_eq_ok.1 h
  split at h
  case isTrue => cases h
  case isFalse =>
    rw [← Except.ok.inj h]
    exact hfold _ _ rfl

namespace Startup

/-- A start whose network task has just been brought up. -/
def State.launch (w : Worker) (known : List KnownPeer) : State :=
  .make
    { worker := w
      commands := { capacity := Server.commandQueue }
      inbound := { capacity := Server.inboundQueue } }
    known

/-- Everything that can happen in a state, with what it leads to. -/
inductive Steps (s : State) : Action → State → Prop
  | network {a : NetworkTask.Action} {t : NetworkTask.State} : NetworkTask.Steps s.network a t →
    Steps s (.network a) { s with network := t }
  | send (i : Nat) (d : Dial) (commands : Channel Command) : s.dials[i]? = some d →
    d.stage = .sending →
      s.network.commands.send? (.connect d.peer d.addresses d.reply) = some commands →
        Steps s (.send i) ({ s with network := { s.network with commands } }.setStage i .waiting)
  | giveUp (i : Nat) (d : Dial) : s.dials[i]? = some d → d.stage = .sending →
    s.network.commands.heard = false → Steps s (.send i) (s.setStage i .done)
  | hear (i : Nat) (d : Dial) : s.dials[i]? = some d → d.stage = .waiting →
    s.network.resolved d.reply = true → Steps s (.hear i) (s.setStage i .done)
  | proceed : s.returned = false → (∀ d ∈ s.dials, d.stage = .done) →
    Steps s .proceed { s with returned := true }
  | cancel : Steps s .cancel { s with network := { s.network with cancelled := true } }

theorem steps_of_step {s t : State} {a : Action} (h : step s a = some t) : Steps s a t := by
  cases a with
  | network a =>
      simp only [step, Option.map_eq_some_iff] at h
      obtain ⟨t, ht, rfl⟩ := h
      exact .network (NetworkTask.steps_of_step ht)
  | send i =>
      simp only [step, Option.bind_eq_bind, Option.bind_eq_some_iff] at h
      obtain ⟨d, hd, h⟩ := h
      split at h
      case isTrue hs =>
        unfold State.sendDial at h
        split at h
        case isTrue hheard =>
          rw [Option.map_eq_some_iff] at h
          obtain ⟨commands, hc, rfl⟩ := h
          exact .send i d commands hd hs hc
        case isFalse hheard =>
          cases h
          exact .giveUp i d hd hs (Bool.eq_false_iff.2 hheard)
      case isFalse => cases h
  | hear i =>
      simp only [step, Option.bind_eq_bind, Option.bind_eq_some_iff] at h
      obtain ⟨d, hd, h⟩ := h
      split at h
      case isTrue hs =>
        cases h
        exact .hear i d hd hs.1 hs.2
      case isFalse => cases h
  | proceed =>
      simp only [step] at h
      split at h
      case isTrue hs =>
        cases h
        rw [Bool.and_eq_true, Bool.not_eq_true', List.all_eq_true] at hs
        exact .proceed hs.1 fun d hd => of_decide_eq_true (hs.2 d hd)
      case isFalse => cases h
  | cancel =>
      cases h
      exact .cancel

theorem step_send {s : State} {i : Nat} {d : Dial} {commands : Channel Command}
    (hd : s.dials[i]? = some d) (hsending : d.stage = .sending)
    (hsent : s.network.commands.send? (.connect d.peer d.addresses d.reply) = some commands) :
    step s (.send i) =
      some ({ s with network := { s.network with commands } }.setStage i .waiting) := by
  have hheard := (Channel.send?_eq_some_iff.1 hsent).1
  simp [step, State.sendDial, hd, hsending, hheard, hsent]

/-- Runs whose every action is allowed in its state. -/
inductive Run (allowed : State → Action → Prop) : State → List Action → State → Prop
  | done (s : State) : Run allowed s [] s
  | step {s t u : State} {a : Action} {rest : List Action} : allowed s a →
    Startup.step s a = some t → Run allowed t rest u → Run allowed s (a :: rest) u

/-- The network names a connection that it opens unlike all pending ones. -/
def Fresh (s : State) : Action → Prop
  | .network a => NetworkTask.Fresh s.network a
  | _ => True

/-! ## Dials after one of them changed -/

theorem setStage_self {s : State} {i : Nat} {d : Dial} (hd : s.dials[i]? = some d)
    (stage : DialStage) : (s.setStage i stage).dials[i]? = some { d with stage } := by
  unfold State.setStage
  rw [List.getElem?_modify, hd]
  simp

theorem setStage_of_ne {i j : Nat} (hij : i ≠ j) (s : State) (stage : DialStage) :
    (s.setStage i stage).dials[j]? = s.dials[j]? := by
  unfold State.setStage
  rw [List.getElem?_modify]
  simp [hij]

/-- A dial of a start after a step is a dial from before, in another stage perhaps. -/
theorem setStage_eq_some {s : State} {i j : Nat} {stage : DialStage} {d' : Dial}
    (h : (s.setStage i stage).dials[j]? = some d') :
    ∃ d, s.dials[j]? = some d ∧ d'.reply = d.reply ∧
      ((i = j ∧ d'.stage = stage) ∨ (i ≠ j ∧ d'.stage = d.stage)) := by
  by_cases hij : i = j
  · subst hij
    cases hd : s.dials[i]? with
    | none =>
        unfold State.setStage at h
        rw [List.getElem?_modify, hd] at h
        cases h
    | some d =>
        rw [setStage_self hd] at h
        cases h
        exact ⟨d, rfl, rfl, Or.inl ⟨rfl, rfl⟩⟩
  · rw [setStage_of_ne hij] at h
    exact ⟨d', h, rfl, Or.inr ⟨hij, rfl⟩⟩

/-- A dial that is past its sending, or is now, is past it afterwards. -/
theorem setStage_sent {s : State} {i j : Nat} {stage : DialStage} {d : Dial}
    (hstage : stage ≠ .sending) (hd : s.dials[j]? = some d) (h : i = j ∨ d.stage ≠ .sending) :
    ∃ d', (s.setStage i stage).dials[j]? = some d' ∧ d'.stage ≠ .sending := by
  by_cases hij : i = j
  · subst hij
    exact ⟨_, setStage_self hd stage, hstage⟩
  · exact ⟨d, by rw [setStage_of_ne hij, hd], h.resolve_left hij⟩

/-! ## The invariant -/

/-- What holds in every state of a start. -/
structure Sound (s : State) : Prop where
  /-- The start keeps the inbound queue without taking anything out of it. -/
  heard : s.network.inbound.heard = true
  inboundRoom : s.network.inbound.capacity = Server.inboundQueue
  commandRoom : s.network.commands.capacity = Server.commandQueue
  /-- Commands find the network task until it ends. -/
  listening : s.network.commands.heard = true ↔ s.network.stage ≠ .ended
  numbered : ∀ (i : Nat) (d : Dial), s.dials[i]? = some d → d.reply = i
  waiting : ∀ (i : Nat) (d : Dial), s.dials[i]? = some d → d.stage = .waiting →
    s.network.stage = .ended ∨ s.network.Holds i
  sent : ∀ i, s.network.Holds i → ∃ d : Dial, s.dials[i]? = some d ∧ d.stage ≠ .sending
  finished : s.returned = true → ∀ d ∈ s.dials, d.stage = .done

theorem launch_dials (w : Worker) (known : List KnownPeer) (i : Nat) :
    (State.launch w known).dials[i]? =
      (known[i]?).map fun k => { peer := k.1, addresses := k.2, reply := i } := by
  simp only [State.launch, State.make, List.getElem?_map, List.getElem?_zipIdx, Option.map_map]
  simp only [Nat.zero_add]
  rfl

theorem sound_launch {w : Worker} (hw : w.pendingDials = []) (known : List KnownPeer) :
    Sound (State.launch w known) := by
  have hdial {i : Nat} {d : Dial} (h : (State.launch w known).dials[i]? = some d) :
      d.reply = i ∧ d.stage = .sending := by
    rw [launch_dials, Option.map_eq_some_iff] at h
    obtain ⟨k, -, rfl⟩ := h
    exact ⟨rfl, rfl⟩
  constructor
  · rfl
  · rfl
  · rfl
  · simp [State.launch, State.make]
  · intro i d hd
    exact (hdial hd).1
  · intro i d hd hwaiting
    rw [(hdial hd).2] at hwaiting
    cases hwaiting
  · rintro i (⟨c, hc, -⟩ | ⟨id, hid⟩ | h)
    · cases hc
    · change Keyed.get? id w.pendingDials = some i at hid
      rw [hw] at hid
      cases hid
    · cases h
  · intro h
    cases h

namespace Sound

variable {s : State}

/-- A step of the network task. -/
theorem network {a : NetworkTask.Action} {t : NetworkTask.State} (h : Sound s)
    (hfresh : NetworkTask.Fresh s.network a) (ht : NetworkTask.Steps s.network a t) :
    Sound { s with network := t } := by
  obtain ⟨hheard, hinbound, hcommand, hserving, hlistening⟩ := ht.queues
  constructor
  · exact hheard.trans h.heard
  · exact hinbound.trans h.inboundRoom
  · exact hcommand.trans h.commandRoom
  · change t.commands.heard = true ↔ t.stage ≠ .ended
    rw [hlistening, h.listening.2 hserving, Bool.true_and, decide_eq_true_iff]
  · exact h.numbered
  · intro i d hd hwaiting
    rcases h.waiting i d hd hwaiting with hended | hheld
    · exact absurd hended hserving
    · by_cases hstage : t.stage = .ended
      · exact Or.inl hstage
      · exact Or.inr ((ht.holds_iff hfresh hstage i).2 hheld)
  · intro i hheld
    exact h.sent i (ht.holds_of_holds hfresh hheld)
  · exact h.finished

/-- The end of a dial. -/
theorem settleDial (h : Sound s) (i : Nat) : Sound (s.setStage i .done) := by
  constructor
  · exact h.heard
  · exact h.inboundRoom
  · exact h.commandRoom
  · exact h.listening
  · intro j d hd
    obtain ⟨d', hd', hreply, -⟩ := setStage_eq_some hd
    rw [hreply]
    exact h.numbered j d' hd'
  · intro j d hd hwaiting
    obtain ⟨d', hd', -, ⟨-, hstage⟩ | ⟨-, hstage⟩⟩ := setStage_eq_some hd
    · rw [hstage] at hwaiting
      cases hwaiting
    · exact h.waiting j d' hd' (hstage ▸ hwaiting)
  · intro j hheld
    obtain ⟨d, hd, hstage⟩ := h.sent j hheld
    exact setStage_sent DialStage.noConfusion hd (Or.inr hstage)
  · intro hreturned d hd
    obtain ⟨j, hj⟩ := List.mem_iff_getElem?.1 hd
    obtain ⟨d', hd', -, ⟨-, hstage⟩ | ⟨-, hstage⟩⟩ := setStage_eq_some hj
    · exact hstage
    · rw [hstage]
      exact h.finished hreturned d' (List.mem_of_getElem? hd')

/-- A dial whose request finds room among the commands. -/
theorem send {i : Nat} {d : Dial} {commands : Channel Command} (h : Sound s)
    (hd : s.dials[i]? = some d) (hsending : d.stage = .sending)
    (hc : s.network.commands.send? (.connect d.peer d.addresses d.reply) = some commands) :
    Sound ({ s with network := { s.network with commands } }.setStage i .waiting) := by
  have hheld {j : Nat} : NetworkTask.State.Holds { s.network with commands } j ↔
      s.network.Holds j ∨ i = j := by
    rw [NetworkTask.State.holds_send hc, Command.reply?, h.numbered i d hd, Option.some.injEq]
  obtain ⟨-, -, hcommands⟩ := Channel.send?_eq_some_iff.1 hc
  constructor
  · exact h.heard
  · exact h.inboundRoom
  · change commands.capacity = Server.commandQueue
    rw [hcommands]
    exact h.commandRoom
  · change commands.heard = true ↔ s.network.stage ≠ .ended
    rw [hcommands]
    exact h.listening
  · intro j d' hd'
    obtain ⟨old, hold, hreply, -⟩ := setStage_eq_some hd'
    rw [hreply]
    exact h.numbered j old hold
  · intro j d' hd' hwaiting
    obtain ⟨old, hold, -, ⟨hij, -⟩ | ⟨-, hstage⟩⟩ := setStage_eq_some hd'
    · exact Or.inr (hheld.2 (Or.inr hij))
    · rcases h.waiting j old hold (hstage ▸ hwaiting) with hended | hj
      · exact Or.inl hended
      · exact Or.inr (hheld.2 (Or.inl hj))
  · intro j hj
    rcases hheld.1 hj with hj | rfl
    · obtain ⟨old, hold, hstage⟩ := h.sent j hj
      exact setStage_sent DialStage.noConfusion hold (Or.inr hstage)
    · exact setStage_sent DialStage.noConfusion hd (Or.inl rfl)
  · intro hreturned
    have hdone := h.finished hreturned d (List.mem_of_getElem? hd)
    rw [hsending] at hdone
    cases hdone

theorem step {t : State} {a : Action} (h : Sound s) (hfresh : Fresh s a)
    (ht : Startup.step s a = some t) : Sound t := by
  cases steps_of_step ht with
  | network hn => exact h.network hfresh hn
  | send i d commands hd hs hc => exact h.send hd hs hc
  | giveUp i d hd hs hheard => exact h.settleDial i
  | hear i d hd hs hresolved => exact h.settleDial i
  | proceed hreturned hdone => exact { h with finished := fun _ => hdone }
  | cancel => exact { h with }

end Sound

/-- The invariant holds in every state that a start comes to. -/
theorem Run.sound {s t : State} {actions : List Action} (hrun : Run Fresh s actions t)
    (h : Sound s) : Sound t := by
  induction hrun with
  | done s => exact h
  | step hfresh ht _ ih => exact ih (h.step hfresh ht)

end Startup

end GossipDirectory
