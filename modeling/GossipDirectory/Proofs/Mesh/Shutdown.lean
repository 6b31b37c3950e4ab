import GossipDirectory.Proofs.Mesh.ShardDeadlock
import GossipDirectory.Proofs.Mesh.TaskEnds

/-!
# Stopping a node

A task that waits for room in a queue does not notice that it is told to stop. It goes on because
the reader of that queue returns: the receive loop stops wherever it waits, which releases the
network task, and the end of the network task releases the relay and the snapshot task. So once a
node is told to stop, some task can go on as long as not all have returned, and a few steps of the
tasks alone bring all of them to their end.

## Implementation notes

A step towards the end is found for the tasks in the order in which they release each other. It
brings its task nearer to the end and leaves the others where they are, so the steps that are left
add up.
-/

namespace GossipDirectory

namespace NodeTasks

/-- A task that has returned has left the queue that it read from. -/
structure State.Released (s : State) : Prop where
  commands : s.network.stage = .ended → s.commands.heard = false
  inbound : s.receiver.stage = .ended → s.inbound.heard = false

/-- How many steps the last task is away from its end at most. -/
def Application.toEnd : Application → Nat
  | .consumer s => (!s.ended).toNat
  | .relay s => s.stage.toEnd

/-- How many steps the tasks are away from their end at most. -/
def State.toEnd (s : State) : Nat :=
  s.network.stage.toEnd + s.receiver.stage.toEnd + (s.snapshots.elim 0 (·.stage.toEnd)) +
    s.application.toEnd

/-- A node whose start has returned, with everything that its tasks share as it is then. -/
inductive Started : State → Prop
  | standalone (w : Worker) (known : List KnownPeer) (actions : List Startup.Action)
    (start : Startup.State) (snapshots : Option SnapshotTask.State) :
    Startup.Run (fun _ _ => True) (.launch w known) actions start → start.returned = true →
      Started (.afterStart start.network { capacity := Server.messageQueue } snapshots
        (.consumer { queue := { capacity := Server.messageQueue }, directory := .empty }))
  | shard (w : Worker) (known : List KnownPeer) (actions : List Startup.Action)
    (start : Startup.State) (snapshots : Option SnapshotTask.State) (base : String)
    (childId : UInt32) (bus : Bus) :
    Startup.Run (fun _ _ => True) (.launch w known) actions start → start.returned = true →
      Started (.afterStart start.network { capacity := Server.messageQueue } snapshots
        (.relay { Fleet.shard base childId Server.messageQueue Server.commandQueue with bus }))

variable {s t : State} {a : Action}

theorem released_afterStart {w : Worker} {known : List KnownPeer} {actions : List Startup.Action}
    {start : Startup.State} (hrun : Startup.Run (fun _ _ => True) (.launch w known) actions start)
    (delivery : Channel Message) (snapshots : Option SnapshotTask.State)
    (application : Application) :
    (State.afterStart start.network delivery snapshots application).Released where
  commands := hrun.released nofun
  inbound := nofun

theorem Started.released (h : Started s) : s.Released := by
  cases h with
  | standalone w known actions start snapshots hrun _ => exact released_afterStart hrun _ _ _
  | shard w known actions start snapshots base childId bus hrun _ =>
      exact released_afterStart hrun _ _ _

/-- Everything that can happen to the tasks of a node, with what it leads to. -/
inductive Moves (s : State) : Action → State → Prop
  | network {a : NetworkTask.Action} {t : NetworkTask.State} :
    NetworkTask.step s.networkTask a = some t →
      Moves s (.network a) { s with network := t, commands := t.commands, inbound := t.inbound }
  | receive {a : ReceiveLoop.Action} {t : ReceiveLoop.State} :
    ReceiveLoop.step s.receiveLoop a = some t →
      Moves s (.receive a)
        { s with
          receiver := t
          inbound := t.inbound
          delivery := { t.delivery with fed := s.delivery.fed } }
  | snapshot {a : SnapshotTask.Action} {task t : SnapshotTask.State} {commands : Channel Command} :
    s.snapshots = some task →
      SnapshotTask.step s.networkTask { task with cancelled := s.cancelled } a =
        some (t, commands) →
      Moves s (.snapshot a) { s with snapshots := some t, commands }
  | consume {now : Millis} {a : Consumer.Action} {consumer t : Consumer.State} :
    s.application = .consumer consumer →
      Consumer.step .standard now
        { consumer with queue := s.delivery, cancelled := s.cancelled } a = some t →
      Moves s (.consume now a) { s with application := .consumer t, delivery := t.queue }
  | relay {a : ChildRelay.Action} {relay t : ChildRelay.State} :
    s.application = .relay relay →
      ChildRelay.step
        { relay with inbox := s.delivery, outbox := s.commands, cancelled := s.cancelled } a =
        some t →
      Moves s (.relay a)
        { s with application := .relay t, delivery := t.inbox, commands := t.outbox }
  | instruct (data : Bytes) {relay : ChildRelay.State} : s.application = .relay relay →
    Moves s (.instruct data)
      { s with application :=
          .relay { relay with bus := relay.bus.spread relay.subjects.children data } }
  | cancel : Moves s .cancel { s with cancelled := true }

theorem moves_of_step (h : step s a = some t) : Moves s a t := by
  cases a with
  | network a =>
      obtain ⟨t, ht, rfl⟩ := Option.map_eq_some_iff.1 h
      exact .network ht
  | receive a =>
      obtain ⟨t, ht, rfl⟩ := Option.map_eq_some_iff.1 h
      exact .receive ht
  | snapshot a =>
      simp only [step, State.stepSnapshots, Option.bind_eq_bind, Option.bind_eq_some_iff] at h
      obtain ⟨task, htask, ⟨task', commands⟩, ht, heq⟩ := h
      cases heq
      exact .snapshot htask ht
  | consume now a =>
      simp only [step, State.stepConsumer] at h
      split at h
      case h_1 consumer happlication =>
        obtain ⟨consumer, ht, rfl⟩ := Option.map_eq_some_iff.1 h
        exact .consume happlication ht
      case h_2 => cases h
  | relay a =>
      simp only [step, State.stepRelay] at h
      split at h
      case h_1 relay happlication =>
        obtain ⟨relay, ht, rfl⟩ := Option.map_eq_some_iff.1 h
        exact .relay happlication ht
      case h_2 => cases h
  | instruct data =>
      simp only [step, State.instructed] at h
      split at h
      case h_1 relay happlication =>
        cases h
        exact .instruct data happlication
      case h_2 => cases h
  | cancel =>
      cases h
      exact .cancel

theorem Moves.step (h : Moves s a t) : step s a = some t := by
  cases h with
  | network ht => exact Option.map_eq_some_iff.2 ⟨_, ht, rfl⟩
  | receive ht => exact Option.map_eq_some_iff.2 ⟨_, ht, rfl⟩
  | snapshot htask ht => simp [NodeTasks.step, State.stepSnapshots, htask, ht]
  | consume happlication ht => simp [NodeTasks.step, State.stepConsumer, happlication, ht]
  | relay happlication ht => simp [NodeTasks.step, State.stepRelay, happlication, ht]
  | instruct data happlication => simp [NodeTasks.step, State.instructed, happlication]
  | cancel => rfl

theorem Moves.cancelled (h : Moves s a t) (hcancelled : s.cancelled = true) :
    t.cancelled = true := by
  cases h with
  | cancel => rfl
  | _ => exact hcancelled

theorem Moves.released (h : Moves s a t) (hreleased : s.Released) : t.Released := by
  cases h with
  | network ht =>
      have hsteps := NetworkTask.steps_of_step ht
      exact ⟨hsteps.released, fun hended => hsteps.queues.1.trans (hreleased.inbound hended)⟩
  | receive ht =>
      refine ⟨hreleased.commands, ?_⟩
      cases ReceiveLoop.steps_of_step ht with
      | stop hstage htold => exact fun _ => rfl
      | _ => exact nofun
  | snapshot htask ht =>
      refine ⟨fun hended => ?_, hreleased.inbound⟩
      exact (SnapshotTask.heard_of_step ht).trans (hreleased.commands hended)
  | relay happlication ht =>
      refine ⟨fun hended => ?_, hreleased.inbound⟩
      exact (ChildRelay.heard_of_step ht).trans (hreleased.commands hended)
  | _ => exact ⟨hreleased.commands, hreleased.inbound⟩

theorem released_of_reaches {allowed : State → Action → Prop} {s₀ : State} {actions : List Action}
    (hrun : Reaches step allowed s₀ actions s) (h : s₀.Released) : s.Released := by
  induction hrun with
  | start => exact h
  | step _ _ ht ih => exact (moves_of_step ht).released ih

/-! ## The way to the end -/

/-- A node that is told to stop, every queue of which is left by the tasks that have returned. -/
structure State.Stopping (s : State) : Prop where
  cancelled : s.cancelled = true
  released : s.Released

theorem Moves.stopping (h : Moves s a t) (hs : s.Stopping) : t.Stopping :=
  ⟨h.cancelled hs.cancelled, h.released hs.released⟩

/-- As long as a task has not returned, one of them has a step of its own that brings it nearer to
its end and leaves the others where they are. -/
theorem State.Stopping.exists_toEnd_lt (h : s.Stopping) (hs : ¬s.allEnded) :
    ∃ a t, a.isOwn = true ∧ Moves s a t ∧ t.toEnd < s.toEnd := by
  by_cases hreceiver : s.receiver.stage = .ended
  case neg =>
    obtain ⟨t, ht, hless⟩ := ReceiveLoop.exists_toEnd_lt (s := s.receiveLoop) h.cancelled hreceiver
    refine ⟨_, _, rfl, .receive ht, ?_⟩
    change t.stage.toEnd < s.receiver.stage.toEnd at hless
    simp only [State.toEnd]
    omega
  by_cases hnetwork : s.network.stage = .ended
  case neg =>
    obtain ⟨a, t, hown, ht, hless⟩ := NetworkTask.exists_toEnd_lt (s := s.networkTask) h.cancelled
      (h.released.inbound hreceiver) hnetwork
    refine ⟨_, _, hown, .network ht, ?_⟩
    change t.stage.toEnd < s.network.stage.toEnd at hless
    simp only [State.toEnd]
    omega
  have hcommands := h.released.commands hnetwork
  by_cases hsnapshots : ∀ t ∈ s.snapshots, t.stage = .ended
  case neg =>
    obtain ⟨task, htask, hstage⟩ : ∃ task, s.snapshots = some task ∧ task.stage ≠ .ended := by
      simpa using hsnapshots
    have hended : s.networkTask.stage = .ended := hnetwork
    obtain ⟨a, t, hown, ht, hless⟩ := SnapshotTask.exists_toEnd_lt
      (s := { task with cancelled := s.cancelled }) h.cancelled hended hcommands hstage
    refine ⟨_, _, hown, .snapshot htask ht, ?_⟩
    change t.stage.toEnd < task.stage.toEnd at hless
    simp only [State.toEnd, htask, Option.elim]
    omega
  have hopen : ¬s.application.ended = true :=
    fun hended => hs ⟨hnetwork, hreceiver, hsnapshots, hended⟩
  cases happlication : s.application with
  | consumer c =>
      simp only [happlication, Application.ended, Bool.not_eq_true] at hopen
      have hstop : Consumer.step .standard 0
          { c with queue := s.delivery, cancelled := s.cancelled } .stop =
            some (Consumer.State.finish
              { c with queue := s.delivery, cancelled := s.cancelled }) := by
        simp [Consumer.step, hopen, h.cancelled]
      refine ⟨_, _, rfl, .consume happlication hstop, ?_⟩
      simp [State.toEnd, happlication, Application.toEnd, Consumer.State.finish, hopen]
  | relay r =>
      simp only [happlication, Application.ended, Option.not_isSome_iff_eq_none] at hopen
      obtain ⟨a, t, ht, hless⟩ := ChildRelay.exists_toEnd_lt
        (s := { r with inbox := s.delivery, outbox := s.commands, cancelled := s.cancelled })
        h.cancelled hcommands hopen
      refine ⟨_, _, rfl, .relay happlication ht, ?_⟩
      change t.stage.toEnd < r.stage.toEnd at hless
      simp only [State.toEnd, happlication, Application.toEnd]
      omega

/-- The tasks of a node that is told to stop can come to their end by themselves. -/
theorem State.Stopping.exists_end (h : s.Stopping) :
    ∃ more t, Reaches step (fun _ a => a.isOwn = true) s more t ∧ t.allEnded := by
  induction hn : s.toEnd using Nat.strongRecOn generalizing s with
  | ind n ih =>
      by_cases hs : s.allEnded
      · exact ⟨[], s, .start, hs⟩
      · obtain ⟨a, t, hown, hmove, hless⟩ := h.exists_toEnd_lt hs
        obtain ⟨more, u, hmore, hended⟩ := ih t.toEnd (hn ▸ hless) (hmove.stopping h) rfl
        have hfirst : Reaches step (fun _ a => a.isOwn = true) s [a] t :=
          Reaches.start.step hown hmove.step
        exact ⟨a :: more, u, hfirst.trans hmore, hended⟩

/-- Tasks that have returned do nothing more. -/
theorem not_canStep_of_allEnded (hs : s.allEnded) : ¬s.canStep := by
  obtain ⟨hnetwork, hreceiver, hsnapshots, happlication⟩ := hs
  rintro ⟨a, hown, hstep⟩
  obtain ⟨t, hstep⟩ := Option.isSome_iff_exists.1 hstep
  cases moves_of_step hstep with
  | network ht => exact (NetworkTask.steps_of_step ht).queues.2.2.2.1 hnetwork
  | receive ht => exact (ReceiveLoop.steps_of_step ht).not_ended hreceiver
  | snapshot htask ht =>
      have hended := hsnapshots _ htask
      exact SnapshotTask.not_ended_of_step ht hended
  | consume hconsumer ht =>
      rw [hconsumer] at happlication
      exact Consumer.not_ended_of_step ht happlication
  | relay hrelay ht =>
      rw [hrelay] at happlication
      have hopen := ChildRelay.result?_of_step ht
      exact Option.isSome_iff_ne_none.1 happlication hopen
  | instruct data hrelay => cases hown
  | cancel => cases hown

/-- Once a node is told to stop after its start, some task can go on as long as not all have
returned, however full the queues are and whatever the tasks wait for, and the tasks can all come to
their end by themselves. -/
theorem stops_from_everywhere {s₀ : State} {actions : List Action} (hstart : Started s₀)
    (hrun : Reaches step (fun _ _ => True) s₀ actions s) (hcancelled : s.cancelled = true) :
    (s.canStep ↔ ¬s.allEnded) ∧
      ∃ more t, Reaches step (fun _ a => a.isOwn = true) s more t ∧ t.allEnded := by
  have hstopping : s.Stopping := ⟨hcancelled, released_of_reaches hrun hstart.released⟩
  refine ⟨⟨fun hcan hended => not_canStep_of_allEnded hended hcan, fun hs => ?_⟩,
    hstopping.exists_end⟩
  obtain ⟨a, t, hown, hmove, -⟩ := hstopping.exists_toEnd_lt hs
  exact ⟨a, hown, by rw [hmove.step]; rfl⟩

theorem started_shard (w : Worker) (base : String) (childId : UInt32) :
    Started (.shard w base childId) :=
  .shard w [] [.proceed] { Startup.State.launch w [] with returned := true } none base childId {}
    (.step trivial rfl (.done _)) rfl

/-- A shard in which every task waits for room in the queue of another comes to its end once it is
told to stop. -/
theorem deadlockedShard_stops :
    ∃ w, Worker.spawn Startup.lonely Startup.desertIsland [] = .ok w ∧
      ∃ actions s, Started (.shard w "soroban" 1) ∧
        Reaches step (fun _ _ => True) (.shard w "soroban" 1) actions s ∧ s.cancelled = true ∧
        s.Deadlocked ∧ s.canStep ∧
        ∃ more t, Reaches step (fun _ a => a.isOwn = true) s more t ∧ t.allEnded := by
  obtain ⟨w, hw⟩ : ∃ w, Worker.spawn Startup.lonely Startup.desertIsland [] = .ok w := ⟨_, rfl⟩
  obtain ⟨data, actions, s, r, hrun, hr, hp, -, -⟩ := Attainable.jam w "soroban" 1
  obtain ⟨hnetwork, hreceiver, hrelay⟩ :=
    Attainable.deadlocked hr hp rfl List.length_replicate rfl rfl rfl rfl
  have hstopped := (hrun.mono fun _ _ _ => trivial).step (a := .cancel) trivial rfl
  have hstart := started_shard w "soroban" 1
  obtain ⟨hcan, hend⟩ := stops_from_everywhere hstart hstopped rfl
  refine ⟨w, hw, _, _, hstart, hstopped, rfl, ⟨hnetwork, hreceiver, hrelay⟩, hcan.2 ?_, hend⟩
  rintro ⟨hended, -⟩
  exact hr.network hended

end NodeTasks

end GossipDirectory
