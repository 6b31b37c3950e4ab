import GossipDirectory.Proofs.Mesh.StartupRun
import Mathlib.Algebra.Order.BigOperators.Group.List
import Mathlib.Algebra.Order.Ring.Nat

/-!
# When a start returns

Nobody takes gossip out of the inbound queue before the dials of a start are over, and while gossip
waits for room the network task settles no dial. A start therefore returns exactly as long as the
network task does not wait for room with a dial still open; more gossip than the queue holds can
bring this about in every start that has somebody to dial.

## Implementation notes

That a start can return is said for every network that decides the dials it is given: the tasks find
steps that lead there, whatever the outcomes are.
-/

namespace GossipDirectory

namespace Startup

/-- The network task waits for room that nobody makes, and a dial waits for the network task. -/
def State.Deadlocked (s : State) : Prop :=
  s.networkBlocked ∧ ∃ d ∈ s.dials, d.stage ≠ .done ∧ s.network.resolved d.reply = false

/-! ## No way out -/

theorem not_networkBlocked_of_steps {s : State} {a : NetworkTask.Action} {t : NetworkTask.State}
    (h : NetworkTask.Steps s.network a t) : ¬ s.networkBlocked := by
  rintro ⟨⟨g, hg⟩, hheard, hroom⟩
  exact hroom (h.hasRoom_of_handing hg hheard)

/-- A dial without an outcome is still without one after another has changed. -/
theorem Deadlocked.setStage {s : State} {i : Nat} {stage : DialStage}
    (hblocked : s.networkBlocked) {d d' : Dial} (hd : d ∈ s.dials) (hopen : d.stage ≠ .done)
    (hunresolved : s.network.resolved d.reply = false) (hd' : s.dials[i]? = some d')
    (hstage : stage ≠ .done ∨ s.network.resolved d'.reply = true) :
    (s.setStage i stage).Deadlocked := by
  obtain ⟨j, hj⟩ := List.mem_iff_getElem?.1 hd
  refine ⟨hblocked, ?_⟩
  by_cases hij : i = j
  · subst hij
    rw [hj] at hd'
    cases hd'
    have hne : stage ≠ .done := hstage.resolve_right (by simp [hunresolved])
    exact ⟨_, List.mem_of_getElem? (setStage_self hj stage), hne, hunresolved⟩
  · have hkept := (setStage_of_ne hij s stage).trans hj
    exact ⟨d, List.mem_of_getElem? hkept, hopen, hunresolved⟩

theorem Deadlocked.step {s t : State} {a : Action} (hs : Sound s) (h : s.Deadlocked)
    (ht : Startup.step s a = some t) : t.Deadlocked ∧ Fresh s a := by
  obtain ⟨hblocked, d, hd, hopen, hunresolved⟩ := h
  cases steps_of_step ht with
  | network hn => exact absurd hblocked (not_networkBlocked_of_steps hn)
  | send i d' commands hd' hsending hc =>
      refine ⟨?_, trivial⟩
      exact Deadlocked.setStage (s := { s with network := { s.network with commands } })
        hblocked hd hopen hunresolved hd' (Or.inl DialStage.noConfusion)
  | giveUp i d' hd' hsending hheard =>
      obtain ⟨⟨g, hg⟩, -⟩ := hblocked
      have hlistening := hs.listening.2 (by simp [hg])
      rw [hheard] at hlistening
      cases hlistening
  | hear i d' hd' hwaiting hresolved =>
      exact ⟨Deadlocked.setStage hblocked hd hopen hunresolved hd' (Or.inr hresolved), trivial⟩
  | proceed hreturned hdone => exact absurd (hdone d hd) hopen
  | cancel => exact ⟨⟨hblocked, d, hd, hopen, hunresolved⟩, trivial⟩

/-- A deadlocked start stays so whatever happens, and never returns. -/
theorem Run.deadlocked {allowed : State → Action → Prop} {s t : State} {actions : List Action}
    (hrun : Run allowed s actions t) (hs : Sound s) (h : s.Deadlocked) :
    t.Deadlocked ∧ t.returned = false := by
  induction hrun with
  | done s =>
      refine ⟨h, Bool.eq_false_iff.2 fun hreturned => ?_⟩
      obtain ⟨-, d, hd, hopen, -⟩ := h
      exact hopen (hs.finished hreturned d hd)
  | step _ ht _ ih =>
      obtain ⟨hdead, hfresh⟩ := Deadlocked.step hs h ht
      exact ih (hs.step hfresh ht) hdead

/-! ## Ways out -/

/-- A network that decides every dial it is given, at once or later. -/
structure Network where
  answer : State → DialAnswer
  fresh : ∀ s, Keyed.get? (answer s).id s.network.worker.pendingDials = none
  outcome : State → ConnectionId → SwarmEvent
  decides : ∀ s id, (outcome s id).decided? = some id

/-- The steps of the tasks themselves, and the decisions of a network about pending dials. -/
def Network.Grants (n : Network) (s : State) : Action → Prop
  | .network (.command answer) => answer = n.answer s
  | .network (.report _ _ event) =>
    ∃ id, Keyed.get? id s.network.worker.pendingDials ≠ none ∧ event = n.outcome s id
  | .network (.advertise _) => False
  | .network (.trim _ _) => False
  | .cancel => False
  | _ => True

theorem Network.Grants.fresh {n : Network} {s : State} {a : Action} (h : n.Grants s a) :
    Fresh s a := by
  cases a with
  | network a =>
      cases a with
      | command answer =>
          change answer = n.answer s at h
          rw [h]
          exact n.fresh s
      | _ => trivial
  | _ => trivial

/-- A network in which every dial fails after a while. -/
def Network.failing : Network where
  answer s := { id := (Keyed.keys s.network.worker.pendingDials).sum + 1 }
  fresh s := by
    rw [← Option.not_isSome_iff_eq_none, Keyed.get?_isSome_iff_mem]
    intro h
    exact Nat.not_succ_le_self _ (List.le_sum_of_mem h)
  outcome _ id := .dialFailed id none (.failed .negotiation)
  decides _ _ := rfl

/-- How many steps the stage of a dial takes at most. -/
def DialStage.weight : DialStage → Nat
  | .sending => 4
  | .waiting => 1
  | .done => 0

end Startup

/-- How much gossip the network task has in its hands. -/
def NetworkTask.Stage.inHand : NetworkTask.Stage → Nat
  | .handing _ => 1
  | _ => 0

namespace Startup

/-- How many steps are left at most until all dials are over. -/
def State.weight (s : State) : Nat :=
  (s.dials.map (·.stage.weight)).sum + 2 * s.network.commands.items.length +
    s.network.worker.pendingDials.length + s.network.stage.inHand

theorem sum_map_modify {α : Type} (f : α → Nat) (g : α → α) {l : List α} {i : Nat} {x : α}
    (hx : l[i]? = some x) : ((l.modify i g).map f).sum + f x = (l.map f).sum + f (g x) := by
  induction l generalizing i with
  | nil => cases hx
  | cons y rest ih =>
      cases i with
      | zero =>
          cases hx
          simp only [List.modify_zero_cons, List.map_cons, List.sum_cons]
          omega
      | succ i =>
          have hrest := ih (i := i) hx
          simp only [List.modify_succ_cons, List.map_cons, List.sum_cons]
          omega

theorem weight_setStage {s : State} {i : Nat} {d : Dial} (hd : s.dials[i]? = some d)
    (stage : DialStage) :
    (s.setStage i stage).weight + d.stage.weight = s.weight + stage.weight := by
  have hsum := sum_map_modify (fun d : Dial => d.stage.weight) (fun d => { d with stage }) hd
  unfold State.weight State.setStage
  dsimp only at hsum ⊢
  omega

/-- A step is granted after which the start has returned, or is free and nearer to its return. -/
def Network.Advances (n : Network) (s : State) : Prop :=
  ∃ a t, n.Grants s a ∧ step s a = some t ∧ ¬ t.Deadlocked ∧
    (t.returned = true ∨ t.weight < s.weight)

theorem not_deadlocked_setStage {s : State} (hfree : ¬ s.Deadlocked) (i : Nat) :
    ¬ (s.setStage i .done).Deadlocked := by
  rintro ⟨hblocked, d, hd, hopen, hunresolved⟩
  obtain ⟨j, hj⟩ := List.mem_iff_getElem?.1 hd
  obtain ⟨old, hold, hreply, ⟨-, hstage⟩ | ⟨-, hstage⟩⟩ := setStage_eq_some hj
  · exact hopen hstage
  · exact hfree ⟨hblocked, old, List.mem_of_getElem? hold, hstage ▸ hopen, hreply ▸ hunresolved⟩

theorem not_deadlocked_of_serving {s : State} (h : s.network.stage = .serving) :
    ¬ s.Deadlocked := by
  rintro ⟨⟨⟨g, hg⟩, -⟩, -⟩
  rw [hg] at h
  cases h

section Advances

variable (n : Network) {s : State} {i : Nat} {d : Dial}

theorem advances_proceed (hfree : ¬ s.Deadlocked) (hreturned : s.returned = false)
    (hdone : ∀ d ∈ s.dials, d.stage = .done) : n.Advances s := by
  refine ⟨.proceed, { s with returned := true }, trivial, ?_, hfree, Or.inl rfl⟩
  have hall : s.dials.all (·.stage = .done) = true := by simpa using hdone
  simp only [step, hreturned, hall]
  rfl

theorem advances_over (hfree : ¬ s.Deadlocked) (hd : s.dials[i]? = some d)
    (hopen : d.stage ≠ .done) {a : Action} (ha : n.Grants s a)
    (hstep : step s a = some (s.setStage i .done)) : n.Advances s := by
  refine ⟨a, _, ha, hstep, not_deadlocked_setStage hfree i, Or.inr ?_⟩
  have hweight := weight_setStage hd .done
  have hpositive : 0 < d.stage.weight := by
    cases hstage : d.stage with
    | sending => decide
    | waiting => decide
    | done => exact absurd hstage hopen
  change _ = s.weight + 0 at hweight
  omega

theorem advances_hear (hfree : ¬ s.Deadlocked) (hd : s.dials[i]? = some d)
    (hwaiting : d.stage = .waiting) (hresolved : s.network.resolved d.reply = true) :
    n.Advances s := by
  apply advances_over n hfree hd (by simp [hwaiting]) (a := .hear i) trivial
  simp [step, hd, hwaiting, hresolved]

theorem advances_giveUp (hfree : ¬ s.Deadlocked) (hd : s.dials[i]? = some d)
    (hsending : d.stage = .sending) (hheard : s.network.commands.heard = false) :
    n.Advances s := by
  apply advances_over n hfree hd (by simp [hsending]) (a := .send i) trivial
  simp [step, State.sendDial, hd, hsending, hheard]

theorem advances_send (hserving : s.network.stage = .serving) (hd : s.dials[i]? = some d)
    (hsending : d.stage = .sending) (hheard : s.network.commands.heard = true)
    (hroom : s.network.commands.items.length < s.network.commands.capacity) : n.Advances s := by
  obtain ⟨commands, hsent⟩ :
      ∃ commands, s.network.commands.send? (.connect d.peer d.addresses d.reply) = some commands :=
    ⟨_, Channel.send?_eq_some_iff.2 ⟨hheard, hroom, rfl⟩⟩
  refine ⟨.send i, _, trivial, step_send hd hsending hsent, not_deadlocked_of_serving hserving,
    Or.inr ?_⟩
  have hweight := weight_setStage (s := { s with network := { s.network with commands } })
    hd .waiting
  rw [hsending] at hweight
  simp only [State.weight, DialStage.weight, (Channel.send?_eq_some_iff.1 hsent).2.2,
    List.length_append, List.length_singleton] at hweight ⊢
  omega

theorem advances_command (hserving : s.network.stage = .serving) {c : Command}
    {rest : List Command} (hc : s.network.commands.items = c :: rest) : n.Advances s := by
  obtain ⟨commands, hreceive, hrest⟩ :
      ∃ commands, s.network.commands.receive? = some (c, commands) ∧ commands.items = rest :=
    ⟨{ s.network.commands with items := rest }, Channel.receive?_eq_some_iff.2 ⟨hc, rfl⟩, rfl⟩
  have hstep : step s (.network (.command (n.answer s))) =
      some { s with
        network := NetworkTask.State.did { s.network with commands }
          (s.network.worker.handleCommand (n.answer s) c) } := by
    simp only [step, NetworkTask.step, hserving, hreceive, Option.map_some]
  refine ⟨.network (.command (n.answer s)), _, rfl, hstep,
    not_deadlocked_of_serving hserving, Or.inr ?_⟩
  have hpending := Worker.length_pendingDials_handleCommand s.network.worker (n.answer s) c
  simp only [State.weight, NetworkTask.State.did, hc, hrest, List.length_cons]
  omega

theorem advances_report (hserving : s.network.stage = .serving) (id : ConnectionId)
    (hid : Keyed.get? id s.network.worker.pendingDials ≠ none) : n.Advances s := by
  have hdecided := n.decides s id
  have hstep : step s (.network (.report 0 [] (n.outcome s id))) =
      some { s with
        network := s.network.did (s.network.worker.handleEvent 0 [] (n.outcome s id)) } := by
    cases hevent : n.outcome s id with
    | gossip g =>
        rw [hevent] at hdecided
        cases hdecided
    | _ => simp only [step, NetworkTask.step, hserving, Option.map_some]
  refine ⟨.network (.report 0 [] (n.outcome s id)), _, ⟨id, hid, rfl⟩, hstep,
    not_deadlocked_of_serving hserving, Or.inr ?_⟩
  have herased := (Worker.handleEvent_of_decided hdecided s.network.worker 0 []).1
  have hlength := Keyed.length_erase_lt hid
  simp only [State.weight, NetworkTask.State.did, herased]
  omega

theorem advances_hand {g : InboundGossip} (hhanding : s.network.stage = .handing g)
    (hheard : s.network.inbound.heard = true)
    (hroom : s.network.inbound.items.length < s.network.inbound.capacity) : n.Advances s := by
  obtain ⟨inbound, hsent⟩ : ∃ inbound, s.network.inbound.send? g = some inbound :=
    ⟨_, Channel.send?_eq_some_iff.2 ⟨hheard, hroom, rfl⟩⟩
  have hstep : step s (.network .hand) =
      some { s with network := { s.network with inbound, stage := .serving } } := by
    simp only [step, NetworkTask.step, hhanding, hsent, Option.map_some]
  refine ⟨.network .hand, _, trivial, hstep, not_deadlocked_of_serving rfl, Or.inr ?_⟩
  simp only [State.weight, hhanding, NetworkTask.Stage.inHand]
  omega

end Advances

/-- A free start can always go on, whatever the network decides. -/
theorem Network.advances (n : Network) {s : State} (h : Sound s) (hfree : ¬ s.Deadlocked)
    (hreturned : s.returned = false) : n.Advances s := by
  by_cases hdone : ∀ d ∈ s.dials, d.stage = .done
  · exact advances_proceed n hfree hreturned hdone
  obtain ⟨d, hd, hopen⟩ : ∃ d ∈ s.dials, d.stage ≠ .done := by simpa using hdone
  obtain ⟨i, hi⟩ := List.mem_iff_getElem?.1 hd
  have hreply := h.numbered i d hi
  cases hstage : s.network.stage with
  | ended =>
      cases hdial : d.stage with
      | sending =>
          apply advances_giveUp n hfree hi hdial
          exact Bool.eq_false_iff.2 fun hheard => h.listening.1 hheard hstage
      | waiting =>
          apply advances_hear n hfree hi hdial
          simp [NetworkTask.State.resolved_eq, hstage]
      | done => exact absurd hdial hopen
  | handing g =>
      by_cases hroom : s.network.inbound.items.length < s.network.inbound.capacity
      · exact advances_hand n hstage h.heard hroom
      have hblocked : s.networkBlocked :=
        ⟨⟨g, hstage⟩, h.heard, fun hr => hroom (of_decide_eq_true hr)⟩
      -- the dial is open, so its answer must have been given before the gossip came
      have hresolved : s.network.resolved d.reply = true := by
        rw [← Bool.not_eq_false]
        intro hunresolved
        exact hfree ⟨hblocked, d, hd, hopen, hunresolved⟩
      cases hdial : d.stage with
      | sending =>
          rw [NetworkTask.State.resolved_eq, hstage, hreply] at hresolved
          obtain ⟨d', hd', hsent⟩ := h.sent i (Or.inr (Or.inr (by simpa using hresolved)))
          rw [hi] at hd'
          cases hd'
          exact absurd hdial hsent
      | waiting => exact advances_hear n hfree hi hdial hresolved
      | done => exact absurd hdial hopen
  | serving =>
      cases hitems : s.network.commands.items with
      | cons c rest => exact advances_command n hstage hitems
      | nil =>
          cases hdial : d.stage with
          | sending =>
              apply advances_send n hstage hi hdial
              · exact h.listening.2 (by simp [hstage])
              · rw [hitems, h.commandRoom]
                decide
          | waiting =>
              by_cases hresolved : s.network.resolved d.reply = true
              · exact advances_hear n hfree hi hdial hresolved
              rcases h.waiting i d hi hdial with hended | ⟨c, hc, -⟩ | ⟨id, hid⟩ | hanswered
              · rw [hstage] at hended
                cases hended
              · rw [hitems] at hc
                cases hc
              · exact advances_report n hstage id (by simp [hid])
              · rw [NetworkTask.State.resolved_eq, hreply, hanswered] at hresolved
                exact absurd rfl hresolved
          | done => exact absurd hdial hopen

/-- A free start can return, whatever the network decides. -/
theorem Network.exists_return (n : Network) {s : State} (h : Sound s) (hfree : ¬ s.Deadlocked) :
    ∃ more t, Run n.Grants s more t ∧ t.returned = true := by
  induction hw : s.weight using Nat.strongRecOn generalizing s with
  | ind w ih =>
      cases hreturned : s.returned with
      | true => exact ⟨[], s, .done s, hreturned⟩
      | false =>
          obtain ⟨a, t, ha, ht, hfree', hnext⟩ := n.advances h hfree hreturned
          rcases hnext with hdone | hlt
          · exact ⟨[a], t, .step ha ht (.done t), hdone⟩
          · obtain ⟨more, u, hrun, hu⟩ := ih t.weight (hw ▸ hlt) (h.step ha.fresh ht) hfree' rfl
            exact ⟨a :: more, u, .step ha ht hrun, hu⟩

/-! ## Gossip during a start -/

/-- Gossip reaches the node. -/
def Action.isGossip : Action → Bool
  | .network (.report _ _ (.gossip _)) => true
  | _ => false

/-- How much gossip the network task and the inbound queue hold. -/
def State.held (s : State) : Nat :=
  s.network.inbound.items.length + s.network.stage.inHand

theorem held_step {s t : State} {a : Action} (ht : step s a = some t) :
    t.held ≤ s.held + [a].countP Action.isGossip := by
  cases steps_of_step ht with
  | @network a t hn =>
      unfold State.held
      cases hn with
      | gossip now meshPeers g hs =>
          rw [hs]
          exact Nat.le_refl _
      | hand g inbound hs hi =>
          rw [(Channel.send?_eq_some_iff.1 hi).2.2, hs]
          simp [NetworkTask.Stage.inHand]
      | discard g hs hi => exact Nat.le_add_right_of_le (Nat.add_le_add_left (Nat.zero_le _) _)
      | stop hs hc => exact Nat.le_add_right_of_le (Nat.add_le_add_left (Nat.zero_le _) _)
      | _ => exact Nat.le_add_right _ _
  | _ => exact Nat.le_add_right _ _

theorem Run.held_le {allowed : State → Action → Prop} {s t : State} {actions : List Action}
    (hrun : Run allowed s actions t) : t.held ≤ s.held + actions.countP Action.isGossip := by
  induction hrun with
  | done s => exact Nat.le_refl _
  | @step s t u a rest _ ht _ ih =>
      have hstep := held_step ht
      rw [← List.singleton_append, List.countP_append]
      omega

theorem Sound.not_deadlocked {s : State} (h : Sound s) (hheld : s.held ≤ Server.inboundQueue) :
    ¬ s.Deadlocked := by
  rintro ⟨⟨⟨g, hg⟩, -, hroom⟩, -⟩
  apply hroom
  apply decide_eq_true
  rw [h.inboundRoom]
  unfold State.held at hheld
  rw [hg] at hheld
  exact hheld

theorem Run.append {allowed : State → Action → Prop} {s t u : State} {before after : List Action}
    (h : Run allowed s before t) (h' : Run allowed t after u) :
    Run allowed s (before ++ after) u := by
  induction h with
  | done s => exact h'
  | step ha ht _ ih => exact .step ha ht (ih h')

/-- A start with more gossip in the inbound queue. -/
def State.queued (s : State) (gossip : List InboundGossip) : State :=
  { s with network := { s.network with
      inbound := { s.network.inbound with items := s.network.inbound.items ++ gossip } } }

/-- A start whose network task has gossip in its hands. -/
def State.handing (s : State) (g : InboundGossip) : State :=
  { s with network := { s.network with stage := .handing g } }

theorem run_handing {s : State} (hserving : s.network.stage = .serving) (g : InboundGossip) :
    Run Fresh s [.network (.report 0 [] (.gossip g))] (s.handing g) := by
  refine .step trivial ?_ (.done _)
  simp [step, NetworkTask.step, hserving, State.handing]

theorem run_queued {s : State} (hserving : s.network.stage = .serving)
    (hheard : s.network.inbound.heard = true)
    (hroom : s.network.inbound.items.length < s.network.inbound.capacity) (g : InboundGossip) :
    Run Fresh s [.network (.report 0 [] (.gossip g)), .network .hand] (s.queued [g]) := by
  apply (run_handing hserving g).append
  refine .step trivial ?_ (.done _)
  have hsent : s.network.inbound.send? g =
      some { s.network.inbound with items := s.network.inbound.items ++ [g] } :=
    Channel.send?_eq_some_iff.2 ⟨hheard, hroom, rfl⟩
  simp [step, NetworkTask.step, State.handing, State.queued, hsent, hserving]

/-- Gossip is queued, message by message, as long as there is room. -/
theorem exists_run_queued (g : InboundGossip) (k : Nat) {s : State}
    (hserving : s.network.stage = .serving) (hheard : s.network.inbound.heard = true)
    (hroom : s.network.inbound.items.length + k ≤ s.network.inbound.capacity) :
    ∃ actions, Run Fresh s actions (s.queued (List.replicate k g)) ∧
      actions.countP Action.isGossip = k := by
  induction k generalizing s with
  | zero =>
      have hsame : s.queued [] = s := by simp [State.queued]
      refine ⟨[], ?_, rfl⟩
      rw [List.replicate_zero, hsame]
      exact .done s
  | succ k ih =>
      have hfirst := run_queued hserving hheard (by omega) g
      obtain ⟨rest, hrest, hcount⟩ := ih (s := s.queued [g]) hserving hheard (by
        simp only [State.queued, List.length_append, List.length_singleton]
        omega)
      have hsame : s.queued (List.replicate (k + 1) g) =
          (s.queued [g]).queued (List.replicate k g) := by
        simp [State.queued, List.replicate_succ]
      rw [hsame]
      refine ⟨_, hfirst.append hrest, ?_⟩
      rw [List.countP_append, hcount]
      exact Nat.add_comm 1 k

/-- One message more than there is room for deadlocks a start that waits for a dial. -/
theorem exists_run_of_waiting (g : InboundGossip) (k : Nat) {s : State} {d : Dial}
    (hserving : s.network.stage = .serving) (hheard : s.network.inbound.heard = true)
    (hroom : s.network.inbound.items.length + k = s.network.inbound.capacity)
    (hd : d ∈ s.dials) (hwaiting : d.stage = .waiting)
    (hunresolved : s.network.resolved d.reply = false) :
    ∃ actions t, Run Fresh s actions t ∧ actions.countP Action.isGossip = k + 1 ∧ t.waits ∧
      t.Deadlocked := by
  obtain ⟨fill, hfill, hcount⟩ :=
    exists_run_queued g k hserving hheard (Nat.le_of_eq hroom)
  have hstuck := run_handing (s := s.queued (List.replicate k g)) hserving g
  refine ⟨_, _, hfill.append hstuck, ?_, ⟨d, hd, hwaiting⟩, ⟨⟨g, rfl⟩, hheard, ?_⟩, d, hd, ?_, ?_⟩
  · rw [List.countP_append, hcount]
    rfl
  · intro hfits
    have hlt := of_decide_eq_true hfits
    change (s.network.inbound.items ++ List.replicate k g).length < s.network.inbound.capacity
      at hlt
    rw [List.length_append, List.length_replicate, hroom] at hlt
    exact Nat.lt_irrefl _ hlt
  · rw [hwaiting]
    exact DialStage.noConfusion
  · rw [NetworkTask.State.resolved_eq, Bool.or_eq_false_iff] at hunresolved
    rw [NetworkTask.State.resolved_eq, Bool.or_eq_false_iff]
    exact ⟨hunresolved.1, rfl⟩

/-- A start that has somebody to dial can be deadlocked from its beginning. -/
theorem exists_run_deadlocked (w : Worker) {known : List KnownPeer} (hknown : known ≠ []) :
    ∃ actions s, Run Fresh (State.launch w known) actions s ∧
      actions.countP Action.isGossip = Server.inboundQueue + 1 ∧ s.waits ∧ s.Deadlocked := by
  obtain ⟨⟨peer, addresses⟩, rest, rfl⟩ := List.exists_cons_of_ne_nil hknown
  have hfirst := launch_dials w ((peer, addresses) :: rest) 0
  let start := State.launch w ((peer, addresses) :: rest)
  obtain ⟨commands, hsent⟩ : ∃ commands,
      start.network.commands.send? (.connect peer addresses 0) = some commands := ⟨_, rfl⟩
  let asked : State := { start with network := { start.network with commands } }
  have hsend : step start (.send 0) = some (asked.setStage 0 .waiting) :=
    step_send hfirst rfl hsent
  have hwaiting := List.mem_of_getElem? (setStage_self (s := asked) hfirst .waiting)
  obtain ⟨actions, s, hrun, hcount, hwaits, hdead⟩ :=
    exists_run_of_waiting ⟨w.me, none, []⟩ Server.inboundQueue (s := asked.setStage 0 .waiting)
      rfl rfl (Nat.zero_add _) hwaiting rfl rfl
  exact ⟨.send 0 :: actions, s, .step trivial hsend hrun, hcount, hwaits, hdead⟩

/-! ## When a start returns -/

/-- In every state that a start comes to, it can still return exactly if it is not deadlocked; a
deadlocked one never returns, whatever happens, and stopping the node does not help. Gossip that the
inbound queue can hold deadlocks no start. One message more deadlocks every start that dials. -/
theorem returns_iff_not_deadlocked {settings : SwarmSettings} {m : Machine} {draws : List Nat}
    {w : Worker} (hw : Worker.spawn settings m draws = .ok w) (known : List KnownPeer) :
    (∀ actions s, Run Fresh (State.launch w known) actions s →
      (∀ n : Network, (∃ more t, Run n.Grants s more t ∧ t.returned = true) ↔ ¬ s.Deadlocked) ∧
      (s.Deadlocked → ∀ more t, Run (fun _ _ => True) s more t → t.returned = false) ∧
      (actions.countP Action.isGossip ≤ Server.inboundQueue → ¬ s.Deadlocked)) ∧
    (known ≠ [] → ∃ actions s, Run Fresh (State.launch w known) actions s ∧
      actions.countP Action.isGossip = Server.inboundQueue + 1 ∧ s.waits ∧ s.Deadlocked) := by
  refine ⟨?_, exists_run_deadlocked w⟩
  intro actions s hrun
  have hsound : Sound s := hrun.sound (sound_launch (Worker.pendingDials_spawn hw) known)
  refine ⟨?_, ?_, ?_⟩
  · intro n
    constructor
    · rintro ⟨more, t, hmore, hreturned⟩ hdead
      rw [(hmore.deadlocked hsound hdead).2] at hreturned
      cases hreturned
    · exact n.exists_return hsound
  · intro hdead more t hmore
    exact (hmore.deadlocked hsound hdead).2
  · intro hcount
    apply hsound.not_deadlocked
    calc
      s.held ≤ (State.launch w known).held + actions.countP Action.isGossip := hrun.held_le
      _ = actions.countP Action.isGossip := Nat.zero_add _
      _ ≤ Server.inboundQueue := hcount

/-- A node that knows nobody but the peers of its snapshot. -/
def lonely : SwarmSettings :=
  { identity := ⟨[]⟩, listen := [.ip4 .loopback, .port .tcp 0], proxy := none, bootstrap := []
    mode := .client, room := "room", gossip := {}, lowWater := 20, highWater := 40 }

/-- A machine from which nothing can be reached. -/
def desertIsland : Machine :=
  .secluded ⟨[], [], none⟩ "" fun _ => .error .channelClosed

/-- With one peer to dial this node can return from its start at first, also if the dial fails, and
no longer after too much gossip. -/
theorem lonely_deadlocks :
    ∃ w, Worker.spawn lonely desertIsland [] = .ok w ∧
      (∃ more t, Run Network.failing.Grants (State.launch w [(Identity.peer ⟨[1]⟩, [])]) more t ∧
        t.returned = true) ∧
      ∃ actions s, Run Fresh (State.launch w [(Identity.peer ⟨[1]⟩, [])]) actions s ∧
        s.waits ∧ s.networkBlocked ∧
          ∀ more t, Run (fun _ _ => True) s more t → t.returned = false := by
  obtain ⟨w, hw⟩ : ∃ w, Worker.spawn lonely desertIsland [] = .ok w := ⟨_, rfl⟩
  obtain ⟨hstates, hdeadlocks⟩ := returns_iff_not_deadlocked hw [(Identity.peer ⟨[1]⟩, [])]
  refine ⟨w, hw, ?_, ?_⟩
  · obtain ⟨hreturns, -, hfree⟩ := hstates [] _ (.done _)
    exact (hreturns Network.failing).2 (hfree (Nat.zero_le _))
  · obtain ⟨actions, s, hrun, -, hwaits, hdead⟩ := hdeadlocks (List.cons_ne_nil _ _)
    exact ⟨actions, s, hrun, hwaits, hdead.1, (hstates actions s hrun).2.1 hdead⟩

end Startup

end GossipDirectory
