import GossipDirectory.Mesh.Tasks
import GossipDirectory.Proofs.Bus.RelaySteps
import GossipDirectory.Proofs.Mesh.ReceiveExactness
import GossipDirectory.Proofs.Mesh.StartupRun

/-!
# Tasks on their way to the end

What a task that is told to stop can still do by itself, and what has to be gone before it can. The
receive loop needs nothing. The network task may wait for the receive loop, the relay for the
network task, and the snapshot task for an answer of the network task; each of them goes on once the
queue that it waits for has lost its reader.

## Implementation notes

`toEnd` bounds the steps that are left. Nothing is assumed of the bus: a relay that is refused ends.
-/

namespace GossipDirectory

namespace NetworkTask

/-- How many steps the task is away from its end at most. -/
def Stage.toEnd : Stage → Nat
  | .ended => 0
  | .serving => 1
  | .handing _ => 2

/-- A task that is told to stop gets nearer to its end once nobody takes its gossip. -/
theorem exists_toEnd_lt {s : State} (hcancelled : s.cancelled = true)
    (hinbound : s.inbound.heard = false) (hstage : s.stage ≠ .ended) :
    ∃ a t, (NodeTasks.Action.network a).isOwn = true ∧ step s a = some t ∧
      t.stage.toEnd < s.stage.toEnd := by
  cases hs : s.stage with
  | ended => exact absurd hs hstage
  | serving =>
      refine ⟨.stop, s.finish, rfl, ?_, Nat.zero_lt_one⟩
      simp only [step, hs, hcancelled, if_true]
  | handing g =>
      refine ⟨.discard, { s with stage := .serving }, rfl, ?_, Nat.lt_succ_self 1⟩
      simp [step, hs, hinbound]

theorem Steps.released {s t : State} {a : Action} (h : Steps s a t) (ht : t.stage = .ended) :
    t.commands.heard = false := by
  rw [h.eq_finish ht]
  rfl

end NetworkTask

namespace ReceiveLoop

/-- How many steps the loop is away from its end. -/
def Stage.toEnd : Stage → Nat
  | .ended => 0
  | _ => 1

/-- A loop that is told to stop can do so wherever it waits. -/
theorem exists_toEnd_lt {s : State} (hcancelled : s.cancelled = true) (hstage : s.stage ≠ .ended) :
    ∃ t, step s .stop = some t ∧ t.stage.toEnd < s.stage.toEnd := by
  refine ⟨s.finish, ?_, ?_⟩
  · unfold step
    cases hs : s.stage with
    | ended => exact absurd hs hstage
    | _ => simp [hcancelled]
  · cases hs : s.stage with
    | ended => exact absurd hs hstage
    | _ => exact Nat.zero_lt_one

theorem Steps.not_ended {s t : State} {a : Action} (h : Steps s a t) : s.stage ≠ .ended := by
  cases h with
  | stop hstage htold => exact hstage
  | accept g inbound m hstage => exact hstage ▸ Stage.noConfusion
  | skip g inbound hstage => exact hstage ▸ Stage.noConfusion
  | noticeEnd hstage => exact hstage ▸ Stage.noConfusion
  | retry hstage => exact hstage ▸ Stage.noConfusion
  | deliver m delivery hstage => exact hstage ▸ Stage.noConfusion
  | discard m hstage => exact hstage ▸ Stage.noConfusion

end ReceiveLoop

namespace SnapshotTask

/-- How many steps the task is away from its end at most. -/
def Stage.toEnd : Stage → Nat
  | .ended => 0
  | .resting => 1
  | .writing _ => 2
  | .waiting _ => 3
  | .asking _ => 4

/-- A task that is told to stop gets nearer to its end once the network task has ended. -/
theorem exists_toEnd_lt {network : NetworkTask.State} {s : State} (hcancelled : s.cancelled = true)
    (hnetwork : network.stage = .ended) (hcommands : network.commands.heard = false)
    (hstage : s.stage ≠ .ended) :
    ∃ a t, (NodeTasks.Action.snapshot a).isOwn = true ∧
      step network s a = some (t, network.commands) ∧ t.stage.toEnd < s.stage.toEnd := by
  cases hs : s.stage with
  | ended => exact absurd hs hstage
  | resting =>
      refine ⟨.stop, { s with stage := .ended }, rfl, ?_, Nat.zero_lt_one⟩
      simp [step, hs, hcancelled]
  | writing known =>
      refine ⟨.write, { s with
        stage := .resting
        files := s.written network.worker.me known }, rfl, ?_, Nat.lt_succ_self 1⟩
      simp [step, hs]
  | waiting reply =>
      cases htold : network.toldPeers? reply with
      | some known =>
          refine ⟨.hear, { s with stage := .writing known }, rfl, ?_, Nat.lt_succ_self 2⟩
          simp [step, hs, htold]
      | none =>
          refine ⟨.hear, { s with stage := .resting }, rfl, ?_, Nat.le.step (Nat.lt_succ_self 1)⟩
          simp [step, hs, htold, hnetwork]
  | asking reply =>
      refine ⟨.ask, { s with stage := .resting }, rfl, ?_, Nat.one_lt_succ_succ 2⟩
      simp [step, hs, hcommands]

/-- The task never gives the network task its queue back. -/
theorem heard_of_step {network : NetworkTask.State} {s t : State} {a : Action}
    {commands : Channel Command} (h : step network s a = some (t, commands)) :
    commands.heard = network.commands.heard := by
  cases a with
  | ask =>
      cases hs : s.stage with
      | asking reply =>
          simp only [step, hs] at h
          split at h
          · obtain ⟨sent, hsent, heq⟩ := Option.map_eq_some_iff.1 h
            cases heq
            rw [(Channel.send?_eq_some_iff.1 hsent).2.2]
          · cases h
            rfl
      | _ => simp [step, hs] at h
  | hear =>
      cases hs : s.stage with
      | waiting reply =>
          cases htold : network.toldPeers? reply with
          | some known =>
              simp only [step, hs, htold] at h
              cases h
              rfl
          | none =>
              simp only [step, hs, htold, Option.ite_none_right_eq_some] at h
              cases h.2
              rfl
      | _ => simp [step, hs] at h
  | stop =>
      cases hs : s.stage with
      | resting =>
          simp only [step, hs, Option.ite_none_right_eq_some] at h
          cases h.2
          rfl
      | _ => simp [step, hs] at h
  | begin reply =>
      cases hs : s.stage with
      | resting =>
          simp only [step, hs] at h
          cases h
          rfl
      | _ => simp [step, hs] at h
  | write =>
      cases hs : s.stage with
      | writing known =>
          simp only [step, hs] at h
          cases h
          rfl
      | _ => simp [step, hs] at h

theorem not_ended_of_step {network : NetworkTask.State} {s : State} {a : Action}
    {next : State × Channel Command} (h : step network s a = some next) : s.stage ≠ .ended := by
  intro hs
  cases a <;> simp [step, hs] at h

end SnapshotTask

theorem Consumer.not_ended_of_step {registry : Registry} {now : Millis} {s t : State} {a : Action}
    (h : step registry now s a = some t) : ¬s.ended = true := by
  intro hs
  unfold step at h
  rw [if_pos hs] at h
  cases h

namespace ChildRelay

/-- How many steps the relay is away from its end at most. -/
def Stage.toEnd : Stage → Nat
  | .ended _ => 0
  | .serving _ => 1
  | .publishing _ _ => 2
  | .announcing _ => 2
  | .subscribing => 3

/-- A relay that is told to stop gets nearer to its end once nobody takes its publications. -/
theorem exists_toEnd_lt {s : State} (hcancelled : s.cancelled = true)
    (houtbox : s.outbox.heard = false) (hopen : s.result? = none) :
    ∃ a t, step s a = some t ∧ t.stage.toEnd < s.stage.toEnd := by
  cases hs : s.stage with
  | ended result => simp [State.result?, hs] at hopen
  | serving id =>
      refine ⟨.stop, s.finish (some id) (.ok ()), ?_, Nat.zero_lt_one⟩
      simp [step, hs, hcancelled]
  | publishing id data =>
      refine ⟨.discard, { s with stage := .serving id }, ?_, Nat.lt_succ_self 1⟩
      simp [step, hs, houtbox]
  | announcing id =>
      cases hanswer : s.bus.publish s.subjects.ready (readyMessage s.childId).toBytes with
      | mk answer bus =>
          cases answer with
          | ok =>
              refine ⟨.announce, { s with bus, stage := .serving id }, ?_, Nat.lt_succ_self 1⟩
              simp only [step, hs, hanswer]
          | error e =>
              refine ⟨.announce, State.finish { s with bus } (some id) (.error e), ?_,
                Nat.zero_lt_succ 1⟩
              simp only [step, hs, hanswer]
  | subscribing =>
      cases hanswer : s.bus.subscribe s.subjects.children with
      | mk answer bus =>
          cases answer with
          | ok id =>
              refine ⟨.subscribe, { s with bus, stage := .announcing id }, ?_, Nat.lt_succ_self 2⟩
              simp only [step, hs, hanswer]
          | error e =>
              refine ⟨.subscribe, State.finish { s with bus } none (.error e), ?_,
                Nat.zero_lt_succ 2⟩
              simp only [step, hs, hanswer]

/-- The relay never gives the network task its queue back. -/
theorem heard_of_step {s t : State} {a : Action} (h : step s a = some t) :
    t.outbox.heard = s.outbox.heard := by
  cases a with
  | subscribe =>
      cases hs : s.stage with
      | subscribing =>
          simp only [step, hs] at h
          split at h
          · cases h
            rfl
          · cases h
            rfl
      | _ => simp [step, hs] at h
  | announce =>
      cases hs : s.stage with
      | announcing id =>
          simp only [step, hs] at h
          split at h
          · cases h
            rfl
          · cases h
            rfl
      | _ => simp [step, hs] at h
  | stop =>
      cases hs : s.stage with
      | serving id =>
          simp only [step, hs, Option.ite_none_right_eq_some] at h
          cases h.2
          rfl
      | _ => simp [step, hs] at h
  | forward =>
      cases hs : s.stage with
      | serving id =>
          simp only [step, hs] at h
          obtain ⟨received, -, rfl⟩ := Option.map_eq_some_iff.1 h
          rfl
      | _ => simp [step, hs] at h
  | take =>
      cases hs : s.stage with
      | serving id =>
          cases hread : s.bus.reading id with
          | nothing => simp [step, hs, hread] at h
          | ended =>
              simp only [step, hs, hread] at h
              cases h
              rfl
          | data data =>
              cases htext : envelopeText? data with
              | none =>
                  simp only [step, hs, hread, htext] at h
                  cases h
                  rfl
              | some text =>
                  obtain ⟨stage, hpublished, -⟩ := publishText_eq
                    { s with bus := s.bus.advance id, taken := s.taken ++ [data] } id text
                  simp only [step, hs, hread, htext] at h
                  rw [hs] at hpublished
                  rw [hpublished] at h
                  cases h
                  rfl
      | _ => simp [step, hs] at h
  | handOver =>
      cases hs : s.stage with
      | publishing id data =>
          simp only [step, hs] at h
          obtain ⟨sent, hsent, rfl⟩ := Option.map_eq_some_iff.1 h
          rw [(Channel.send?_eq_some_iff.1 hsent).2.2]
      | _ => simp [step, hs] at h
  | discard =>
      cases hs : s.stage with
      | publishing id data =>
          simp only [step, hs, Option.ite_none_left_eq_some] at h
          cases h.2
          rfl
      | _ => simp [step, hs] at h

theorem result?_of_step {s t : State} {a : Action} (h : step s a = some t) : s.result? = none := by
  unfold State.result?
  split
  case h_1 result hstage => cases a <;> simp [step, hstage] at h
  case h_2 => rfl

end ChildRelay

namespace Startup

/-- The network task gives up its commands when it ends, during a start as well. -/
theorem Run.released {allowed : State → Action → Prop} {s t : State} {actions : List Action}
    (hrun : Run allowed s actions t)
    (h : s.network.stage = .ended → s.network.commands.heard = false) :
    t.network.stage = .ended → t.network.commands.heard = false := by
  induction hrun with
  | done s => exact h
  | step _ ht _ ih =>
      apply ih
      cases steps_of_step ht with
      | network hn => exact hn.released
      | send i d commands hd hs hc =>
          change _ → commands.heard = false
          rw [(Channel.send?_eq_some_iff.1 hc).2.2]
          exact h
      | giveUp i d hd hs hheard => exact h
      | hear i d hd hs hresolved => exact h
      | proceed hreturned hdone => exact h
      | cancel => exact h

end Startup

end GossipDirectory
