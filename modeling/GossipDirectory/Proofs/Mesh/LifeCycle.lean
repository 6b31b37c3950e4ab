import GossipDirectory.Mesh.Node
import Mathlib.Data.List.Induction

/-!
# The standings of a node

However often a node is started, stopped, cancelled from outside and asked to publish, it is
uninitialized until a start succeeds, then subscribed until something ends it, and closed from then
on. A start that fails leaves nothing behind but its cancelled token, and every start tells once
that it is over.

## Implementation notes

A life is a node among the tokens that its starts were given. Tokens are cancelled from outside, and
each call is over before the next one. A start never looks at its token, so a cancellation while it
goes on shows like one right after it (`start_of_cancelled`).
-/

namespace GossipDirectory

namespace Node

/-! ## One start -/

/-- The network of a start that goes well. Every step on the way may fail. -/
def joinRoom (m : Machine) (o : Options) (r : Randomness) : Except Failure Worker := do
  let (settings, worker) ← joinNetwork m o r
  rejoin m o r settings worker

/-- The node after a start told that it is over. -/
def signalled (n : Node) : Node :=
  { n with readySignals := n.readySignals + 1 }

/-- The node that a failed start leaves behind. -/
def failed (n : Node) : Node :=
  { token := some true, readySignals := n.readySignals + 1 }

/-- The node that a start has brought up. -/
def subscribed (n : Node) (o : Options) (w : Worker) (rootCancelled : Bool) : Node :=
  { phase := .subscribed
    publisher := { connected := true }
    network := some w
    token := some rootCancelled
    tasks := runningTasks o
    readySignals := n.readySignals + 1 }

/-- The end of a start that was not refused. -/
def ended (n : Node) (o : Options) (rootCancelled : Bool) :
    Except Failure Worker → Except Failure Unit × Node
  | .error e => (.error e, n.failed)
  | .ok w => (.ok (), n.subscribed o w rootCancelled)

section Start

variable {n : Node} (m : Machine) (o : Options) (r : Randomness) (rootCancelled : Bool)

theorem start_of_ne (h : n.phase ≠ .uninitialized) :
    n.start m o r rootCancelled = (.error (.gossip .alreadyStarted), n.signalled) :=
  if_pos h

/-- What a start has done before it fails is undone, whichever step it is that fails. -/
theorem start_of_uninitialized (h : n.phase = .uninitialized) :
    n.start m o r rootCancelled = n.ended o rootCancelled (joinRoom m o r) := by
  rw [start, if_neg (not_not.2 h), tryStart, joinRoom]
  cases joinNetwork m o r with
  | error e => rfl
  | ok joined =>
      obtain ⟨settings, worker⟩ := joined
      change _ = n.ended o rootCancelled (rejoin m o r settings worker)
      dsimp only
      cases rejoin m o r settings worker <;> rfl

/-- A start does not look at its token. -/
theorem start_of_cancelled (h : n.phase = .uninitialized) (cancelled : Bool) :
    (n.start m o r true).1 = (n.start m o r false).1 ∧
      (n.start m o r true).2.state cancelled = (n.start m o r false).2.state true := by
  rw [start_of_uninitialized m o r true h, start_of_uninitialized m o r false h]
  cases joinRoom m o r <;> exact ⟨rfl, rfl⟩

end Start

/-! ## Lives -/

/-- A call on a node, or a cancellation from outside. -/
inductive Call
  /-- Starts the node below a token. -/
  | start (token : Nat) (m : Machine) (o : Options) (r : Randomness)
  | shutdown
  /-- Somebody cancels a token. -/
  | cancel (token : Nat)
  | publish (text : String)

/-- The call is a start. -/
def Call.isStart : Call → Bool
  | .start .. => true
  | _ => false

/-- Nothing of the node is running, and what it publishes goes nowhere. -/
def Quiet (n : Node) : Prop :=
  n.tasks = [] ∧ n.network = none ∧
    ∀ text, n.publish text = if text = "" then .error .emptyMessage else .ok none

/-- A node among the tokens of its starts. -/
structure Life where
  node : Node := {}
  /-- The token above the one of the last start that was not refused. -/
  root : Option Nat := none
  /-- The tokens that were cancelled from outside. -/
  cancelled : List Nat := []
  /-- What the starts have come to. -/
  outcomes : List (Except Failure Unit) := []

namespace Life

/-- The token above the node's own one is cancelled. -/
def rootCancelled (l : Life) : Bool :=
  match l.root with
  | some token => token ∈ l.cancelled
  | none => false

/-- Where the node stands for others to see. -/
def state (l : Life) : MeshState :=
  l.node.state l.rootCancelled

/-- Some start has succeeded. -/
def Started (l : Life) : Prop :=
  .ok () ∈ l.outcomes

instance (l : Life) : Decidable l.Started :=
  inferInstanceAs (Decidable (.ok () ∈ l.outcomes))

/-- What comes of starting the node below a token. -/
def start (l : Life) (token : Nat) (m : Machine) (o : Options) (r : Randomness) :
    Except Failure Unit × Node :=
  l.node.start m o r (token ∈ l.cancelled)

/-- The life after a call. -/
def step (l : Life) : Call → Life
  | .start token m o r =>
    let (result, node) := l.start token m o r
    let root := if l.node.phase = .uninitialized then some token else l.root
    { l with node, root, outcomes := l.outcomes ++ [result] }
  | .shutdown => { l with node := l.node.shutdown }
  | .cancel token => { l with cancelled := l.cancelled ++ [token] }
  | .publish _ => l

/-- The life of a new node after some calls. -/
def after (calls : List Call) : Life :=
  calls.foldl step {}

/-- The call ends a node that has joined its room. -/
def EndedBy (l : Life) : Call → Prop
  | .shutdown => True
  | .cancel token => l.root = some token
  | .start .. | .publish _ => False

/-! ## What every call keeps -/

/-- No start has succeeded, and nothing is left of those that failed. -/
structure Fresh (l : Life) : Prop where
  phase : l.node.phase = .uninitialized
  publisher : l.node.publisher = .idle
  network : l.node.network = none
  tasks : l.node.tasks = []
  not_started : ¬ l.Started

/-- The node has joined its room, and may have left it. -/
structure Joined (l : Life) : Prop where
  phase : l.node.phase = .subscribed ∨ l.node.phase = .closed
  connected : l.node.publisher.connected = true
  token : ∃ cancelled, l.node.token = some cancelled
  started : l.Started

/-- The node was stopped, or its token is cancelled. -/
def Over (l : Life) : Prop :=
  l.node.phase = .closed ∨ l.node.tokenCancelled l.rootCancelled = true

variable {l : Life}

theorem Fresh.state (h : l.Fresh) : l.state = .uninitialized := by
  rw [Life.state, Node.state, h.phase, if_neg (by simp)]

theorem Fresh.quiet (h : l.Fresh) : l.node.Quiet := by
  refine ⟨h.tasks, h.network, fun text => ?_⟩
  rw [Node.publish, h.publisher]
  rfl

theorem Joined.state_eq_closed_iff (h : l.Joined) : l.state = .closed ↔ l.Over := by
  rw [Life.state, Node.state, Over]
  rcases h.phase with hphase | hphase <;> simp [hphase]

theorem Joined.state (h : l.Joined) : l.state = .subscribed ∨ l.state = .closed := by
  rw [Life.state, Node.state]
  split
  · exact .inr rfl
  · exact h.phase

theorem Joined.step_start (h : l.Joined) (token : Nat) (m : Machine) (o : Options)
    (r : Randomness) :
    l.start token m o r = (.error (.gossip .alreadyStarted), l.node.signalled) ∧
    l.step (.start token m o r) = { l with
      node := l.node.signalled
      outcomes := l.outcomes ++ [.error (.gossip .alreadyStarted)] } := by
  have hphase : l.node.phase ≠ .uninitialized := by
    rcases h.phase with hphase | hphase <;> simp [hphase]
  have hstart : l.start token m o r = (.error (.gossip .alreadyStarted), l.node.signalled) :=
    start_of_ne m o r _ hphase
  refine ⟨hstart, ?_⟩
  rw [step, hstart, if_neg hphase]

theorem Fresh.step_start (h : l.Fresh) (token : Nat) (m : Machine) (o : Options)
    (r : Randomness) :
    l.start token m o r = l.node.ended o (token ∈ l.cancelled) (joinRoom m o r) ∧
    l.step (.start token m o r) = { l with
      node := (l.node.ended o (token ∈ l.cancelled) (joinRoom m o r)).2
      root := some token
      outcomes := l.outcomes ++ [(l.node.ended o (token ∈ l.cancelled) (joinRoom m o r)).1] } := by
  have hstart := start_of_uninitialized m o r (token ∈ l.cancelled) h.phase
  refine ⟨hstart, ?_⟩
  rw [step, Life.start, hstart, if_pos h.phase]

theorem Joined.phase_shutdown (h : l.Joined) : l.node.shutdown.phase = .closed := by
  rcases h.phase with hphase | hphase <;> simp [Node.shutdown, hphase]

/-- A start that fails leaves a node that is as good as new. -/
theorem Fresh.step_failed (h : l.Fresh) {token : Nat} {m : Machine} {o : Options} {r : Randomness}
    {e : Failure} (hfailed : (l.start token m o r).1 = .error e) :
    (l.step (.start token m o r)).Fresh ∧
      (l.step (.start token m o r)).node.token = some true := by
  obtain ⟨hstart, hstep⟩ := h.step_start token m o r
  rw [hstart] at hfailed
  rw [hstep]
  generalize joinRoom m o r = joined at hfailed ⊢
  cases joined with
  | ok w => cases hfailed
  | error e =>
      refine ⟨⟨rfl, rfl, rfl, rfl, fun hstarted => ?_⟩, rfl⟩
      rcases List.mem_append.1 hstarted with hstarted | hlast
      · exact h.not_started hstarted
      · cases List.mem_singleton.1 hlast

theorem Fresh.step (h : l.Fresh) (call : Call) : (l.step call).Fresh ∨ (l.step call).Joined := by
  cases call with
  | start token m o r =>
      cases hresult : (l.start token m o r).1 with
      | error e => exact .inl (h.step_failed hresult).1
      | ok =>
          obtain ⟨hstart, hstep⟩ := h.step_start token m o r
          rw [hstart] at hresult
          rw [hstep]
          generalize joinRoom m o r = joined at hresult ⊢
          cases joined with
          | error e => cases hresult
          | ok w =>
              exact .inr ⟨.inl rfl, rfl, ⟨_, rfl⟩, List.mem_append_right _ List.mem_cons_self⟩
  | shutdown =>
      have hphase : l.node.shutdown.phase = .uninitialized := by simp [Node.shutdown, h.phase]
      exact .inl ⟨hphase, h.publisher, h.network, rfl, h.not_started⟩
  | cancel token => exact .inl { h with }
  | publish text => exact .inl h

theorem Joined.step (h : l.Joined) (call : Call) : (l.step call).Joined := by
  cases call with
  | start token m o r =>
      rw [(h.step_start token m o r).2]
      exact { h with started := List.mem_append_left _ h.started }
  | shutdown =>
      obtain ⟨cancelled, htoken⟩ := h.token
      have hstopped : l.node.shutdown.token = some true := by simp [Node.shutdown, htoken]
      exact ⟨.inr h.phase_shutdown, h.connected, ⟨true, hstopped⟩, h.started⟩
  | cancel token => exact { h with }
  | publish text => exact h

/-- A node is over when it was before, or when the call ends it. -/
theorem Joined.over_step (h : l.Joined) (call : Call) :
    (l.step call).Over ↔ l.Over ∨ l.EndedBy call := by
  cases call with
  | start token m o r =>
      rw [(h.step_start token m o r).2]
      exact (or_iff_left id).symm
  | shutdown => exact ⟨fun _ => .inr trivial, fun _ => .inl h.phase_shutdown⟩
  | cancel token =>
      -- of all tokens only the one above the node's own matters
      obtain ⟨cancelled, htoken⟩ := h.token
      simp only [Over, Life.step, EndedBy, tokenCancelled, htoken, rootCancelled]
      cases l.root with
      | none => simp
      | some root => simp [or_assoc]
  | publish text => exact (or_iff_left id).symm

theorem signals_step (l : Life) (call : Call) :
    (l.step call).node.readySignals = l.node.readySignals + if call.isStart then 1 else 0 := by
  cases call with
  | start token m o r =>
      change (l.start token m o r).2.readySignals = l.node.readySignals + 1
      by_cases hphase : l.node.phase = .uninitialized
      · rw [Life.start, start_of_uninitialized m o r _ hphase]
        cases joinRoom m o r <;> rfl
      · rw [Life.start, start_of_ne m o r _ hphase]
        rfl
  | shutdown | cancel token | publish text => rfl

/-! ## Whole lives -/

theorem after_append (calls more : List Call) :
    after (calls ++ more) = more.foldl step (after calls) :=
  List.foldl_append

theorem standing_after (calls : List Call) : (after calls).Fresh ∨ (after calls).Joined := by
  induction calls using List.reverseRecOn with
  | nil => exact .inl ⟨rfl, rfl, rfl, rfl, List.not_mem_nil⟩
  | append_singleton calls call ih =>
      rw [after_append]
      rcases ih with h | h
      · exact h.step call
      · exact .inr (h.step call)

theorem signals_after (calls : List Call) :
    (after calls).node.readySignals = calls.countP Call.isStart := by
  induction calls using List.reverseRecOn with
  | nil => rfl
  | append_singleton calls call ih =>
      rw [after_append, List.countP_append, List.countP_singleton, ← ih]
      exact signals_step _ call

theorem Joined.foldl (h : l.Joined) (more : List Call) : (more.foldl Life.step l).Joined := by
  induction more generalizing l with
  | nil => exact h
  | cons call more ih => exact ih (h.step call)

/-- What is over stays over. -/
theorem Joined.over_foldl (h : l.Joined) (hover : l.Over) (more : List Call) :
    (more.foldl Life.step l).Over := by
  induction more generalizing l with
  | nil => exact hover
  | cons call more ih => exact ih (h.step call) ((h.over_step call).2 (.inl hover))

/-- Between any calls a node is uninitialized until a start has succeeded, then subscribed until a
call ends it, and closed from then on. A start of a node that has joined its room changes nothing.
Before, a start succeeds when every step of joining does; one that fails leaves nothing running and
its token cancelled. Every start gives one signal. -/
theorem state_after_calls (calls : List Call) :
    let l := after calls
    ((l.state = .uninitialized ↔ ¬ l.Started) ∧ (l.node.valid = true ↔ l.Started)) ∧
    (l.Started →
      (l.state = .subscribed ∨ l.state = .closed) ∧
      (∀ call, (l.step call).state = .closed ↔ l.state = .closed ∨ l.EndedBy call) ∧
      (∀ more, (after (calls ++ more)).state = .subscribed ∨
        (after (calls ++ more)).state = .closed) ∧
      (l.state = .closed → ∀ more, (after (calls ++ more)).state = .closed) ∧
      ∀ token m o r, (l.start token m o r).1 = .error (.gossip .alreadyStarted) ∧
        l.step (.start token m o r) = { l with
          node := l.node.signalled
          outcomes := l.outcomes ++ [.error (.gossip .alreadyStarted)] }) ∧
    (l.node.readySignals = calls.countP Call.isStart ∧
      ∀ token m o r, (l.step (.start token m o r)).node.readySignals = l.node.readySignals + 1) ∧
    (¬ l.Started → l.node.Quiet ∧
      (∀ token m o r, (l.start token m o r).1 = (joinRoom m o r).map fun _ => ()) ∧
      ∀ token m o r e, (l.start token m o r).1 = .error e →
        let l' := l.step (.start token m o r)
        ¬ l'.Started ∧ l'.state = .uninitialized ∧ l'.node.Quiet ∧ l'.node.token = some true) := by
  intro l
  have hsignals : l.node.readySignals = calls.countP Call.isStart ∧
      ∀ token m o r, (l.step (.start token m o r)).node.readySignals = l.node.readySignals + 1 :=
    ⟨signals_after calls, fun _ _ _ _ => signals_step l _⟩
  rcases standing_after calls with h | h
  case inl =>
    have hvalid : l.node.valid = false := by
      rw [Node.valid, h.publisher]
      rfl
    refine ⟨⟨iff_of_true h.state h.not_started, iff_of_false (by simp [hvalid]) h.not_started⟩,
      fun hstarted => absurd hstarted h.not_started, hsignals,
      fun _ => ⟨h.quiet, ?outcome, ?failed⟩⟩
    case outcome =>
      intro token m o r
      rw [(h.step_start token m o r).1]
      cases joinRoom m o r <;> rfl
    case failed =>
      intro token m o r e hfailed
      obtain ⟨hfresh, htoken⟩ := h.step_failed hfailed
      exact ⟨hfresh.not_started, hfresh.state, hfresh.quiet, htoken⟩
  case inr =>
    have hstate : l.state ≠ .uninitialized := by
      rcases h.state with hstate | hstate <;> simp [l, hstate]
    refine ⟨⟨iff_of_false hstate (not_not.2 h.started), iff_of_true h.connected h.started⟩,
      fun _ => ⟨h.state, ?call, ?later, ?closed, ?start⟩, hsignals,
      fun hnot => absurd h.started hnot⟩
    case call =>
      intro call
      rw [h.state_eq_closed_iff, (h.step call).state_eq_closed_iff, h.over_step]
    case later =>
      intro more
      rw [after_append]
      exact (h.foldl more).state
    case closed =>
      intro hclosed more
      rw [after_append, (h.foldl more).state_eq_closed_iff]
      exact h.over_foldl (h.state_eq_closed_iff.1 hclosed) more
    case start =>
      intro token m o r
      obtain ⟨hstart, hstep⟩ := h.step_start token m o r
      exact ⟨congrArg Prod.fst hstart, hstep⟩

/-- A start with watermarks in the wrong order fails, the next one joins, and its token ends it. -/
theorem state_after_failed_start :
    let m := Machine.secluded .empty "/bin/soroban" fun _ => .error .channelClosed
    let r : Randomness := { seed := List.replicate 32 7, bootstrap := [], snapshot := [] }
    let calls : List Call :=
      [.start 0 m { p2p := { lowWater := 41 } } r, .publish "x", .start 1 m {} r]
    let l := after calls
    (l.outcomes.map Except.isOk = [false, true] ∧ l.state = .subscribed) ∧
    (l.step (.cancel 0)).state ≠ .closed ∧ (l.step (.cancel 1)).state = .closed ∧
    ∀ more, (after (calls ++ more)).state = .subscribed ∨ (after (calls ++ more)).state = .closed :=
  ⟨by decide, by decide, by decide, ((state_after_calls _).2.1 (by decide)).2.2.1⟩

end Life

end Node

end GossipDirectory
