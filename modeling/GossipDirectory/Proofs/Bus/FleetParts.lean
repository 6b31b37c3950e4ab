import GossipDirectory.Bus.Fleet
import GossipDirectory.Proofs.Bus.RelaySteps

/-!
# Parts of a fleet

What one step does to the relay of a shard, to the queue of the parent and to its directory. A shard
has forwarded a first part of what its mesh delivered and holds the rest; the parent applies what
waits in its queue from the front.

## Implementation notes

The queue of the parent's subscription holds what is forwarded and not applied yet. For a parent
that has returned, the queue is what is never applied.
-/

namespace GossipDirectory

namespace Fleet

/-- The envelopes in byte strings. -/
def envelopes (queue : List Bytes) : List Message :=
  queue.filterMap fun data => (Message.ofBytes data).toOption

theorem envelopes_snoc (queue : List Bytes) (data : Bytes) :
    envelopes (queue ++ [data]) = envelopes queue ++ ((Message.ofBytes data).toOption).toList := by
  rw [envelopes, List.filterMap_append]
  cases h : Message.ofBytes data with
  | ok m => simp [envelopes, h, Except.toOption]
  | error e => simp [envelopes, h, Except.toOption]

/-- The relays of all shards, those that are not started yet included. -/
def State.relays (s : State) : List ChildRelay.State :=
  s.shards ++ s.waiting

/-- A fleet with a shard for each id; the numbers are the sizes of its queues. -/
def launch (base : String) (plan : List (UInt32 × Nat × Nat)) : State :=
  make base (plan.map fun (id, inboxSize, outboxSize) => shard base id inboxSize outboxSize)

/-- The envelopes that the mesh of a shard has delivered. -/
def deliveries (i : Nat) (actions : List Action) : List Message :=
  actions.filterMap fun
    | .deliver j m => if j = i then some m else none
    | _ => none

/-- The moments at which the parent took bytes. -/
def takings (actions : List Action) : List Millis :=
  actions.filterMap fun
    | .parent now .take => some now
    | _ => none

/-- The directory after envelopes were applied at some moments. -/
def applyAll (applied : List (Message × Millis)) : Directory :=
  applied.foldl (fun d (m, now) => d.deliver .standard m now) .empty

/-- Everything that can happen in a fleet, with what it leads to. -/
inductive Steps (s : State) : Action → State → Prop
  | start (first : ChildRelay.State) (rest : List ChildRelay.State) : s.waiting = first :: rest →
    Steps s .start { s with waiting := rest, shards := s.shards ++ [first] }
  | parent (now : Millis) (a : ParentRelay.Action) (p : ParentRelay.State) :
    ParentRelay.step .standard now { s.parent with bus := s.bus } a = some p →
      Steps s (.parent now a) { s with parent := p, bus := p.bus }
  | shard (i : Nat) (a : ChildRelay.Action) (r r' : ChildRelay.State) : s.shards[i]? = some r →
    ChildRelay.step { r with bus := s.bus } a = some r' → Steps s (.shard i a) (s.setShard i r')
  | deliver (i : Nat) (m : Message) (r : ChildRelay.State) : s.shards[i]? = some r →
    Steps s (.deliver i m) (s.setShard i
      { r with bus := s.bus, inbox := { r.inbox with items := r.inbox.items ++ [m] } })
  | absorb (i : Nat) (r : ChildRelay.State) (outbox : Channel Command) : s.shards[i]? = some r →
    Steps s (.absorb i) (s.setShard i { r with bus := s.bus, outbox })
  | outside (subject : String) (data : Bytes) :
    Steps s (.outside subject data) { s with bus := s.bus.spread subject data }
  | cancel :
    Steps s .cancel
      { s with
        parent := { s.parent with cancelled := true }
        waiting := s.waiting.map fun t => { t with cancelled := true }
        shards := s.shards.map fun t => { t with cancelled := true } }

theorem steps_of_step {s t : State} {a : Action} (h : step s a = some t) : Steps s a t := by
  have hrelay {i : Nat} {u : ChildRelay.State} (hu : s.relay? i = some u) :
      ∃ r, s.shards[i]? = some r ∧ u = { r with bus := s.bus } := by
    obtain ⟨r, hr, rfl⟩ := Option.map_eq_some_iff.1 hu
    exact ⟨r, hr, rfl⟩
  cases a with
  | start =>
      cases hwaiting : s.waiting with
      | nil => simp [step, hwaiting] at h
      | cons first rest =>
          simp only [step, hwaiting] at h
          cases h
          exact .start first rest hwaiting
  | parent now a =>
      simp only [step, Option.ite_none_right_eq_some, Option.map_eq_some_iff] at h
      obtain ⟨-, p, hp, rfl⟩ := h
      exact .parent now a p hp
  | shard i a =>
      simp only [step, Option.bind_eq_bind, Option.bind_eq_some_iff] at h
      obtain ⟨u, hu, r', hr', h⟩ := h
      obtain ⟨r, hr, rfl⟩ := hrelay hu
      cases h
      exact .shard i a r r' hr hr'
  | deliver i m =>
      simp only [step, Option.bind_eq_bind, Option.bind_eq_some_iff] at h
      obtain ⟨u, hu, inbox, hsend, h⟩ := h
      obtain ⟨r, hr, rfl⟩ := hrelay hu
      obtain ⟨-, -, rfl⟩ := Channel.send?_eq_some_iff.1 hsend
      cases h
      exact .deliver i m r hr
  | absorb i =>
      simp only [step, Option.bind_eq_bind, Option.bind_eq_some_iff] at h
      obtain ⟨u, hu, ⟨c, outbox⟩, -, h⟩ := h
      obtain ⟨r, hr, rfl⟩ := hrelay hu
      cases h
      exact .absorb i r outbox hr
  | outside subject data =>
      cases h
      exact .outside subject data
  | cancel =>
      cases h
      exact .cancel

/-! ## Shards -/

/-- What holds of the relay of a shard, given what its mesh has delivered and whether it can have
been told to stop. -/
structure ShardExact (subjects : Subjects) (b : Bus) (came : List Message) (told : Prop)
    (t : ChildRelay.State) : Prop where
  named : t.subjects = subjects
  subscribed : ∀ id, t.stage.subscription? = some id → b.subject? id = some subjects.children
  forwarded : t.forwarded <+: came
  inbox : t.result? = none → came = t.forwarded ++ t.inbox.items
  cancelled : t.cancelled = true → told
  ended : ∀ r, t.result? = some r → r = .ok () ∧ told

namespace ShardExact

variable {subjects : Subjects} {b b' : Bus} {came : List Message} {told told' : Prop}
  {t t' : ChildRelay.State}

/-- What others do leaves the relay of a shard as it is. -/
theorem mono (h : ShardExact subjects b came told t) (hext : b.Extends b') (htold : told → told') :
    ShardExact subjects b' came told' t where
  named := h.named
  subscribed id hid := hext.subject? id _ (h.subscribed id hid)
  forwarded := h.forwarded
  inbox := h.inbox
  cancelled hc := htold (h.cancelled hc)
  ended r hr := ⟨(h.ended r hr).1, htold (h.ended r hr).2⟩

theorem step {a : ChildRelay.Action} (h : ShardExact subjects b came told t) (hb : b.Sound)
    (hs : ChildRelay.Steps { t with bus := b } a t') : ShardExact subjects t'.bus came told t' := by
  have hopen : t.result? = none := hs.result?_eq_none
  obtain ⟨hsubjects, hcancelled, -⟩ := hs.constant
  have hcame : t'.forwarded <+: came ∧
      (t'.result? = none → came = t'.forwarded ++ t'.inbox.items) := by
    by_cases ha : a = .forward
    · subst ha
      cases hs with
      | forward id m inbox hstage hreceive =>
          have hitems := (Channel.receive?_eq_some_iff.1 hreceive).1
          have hsplit : came = t.forwarded ++ [m] ++ inbox.items := by
            rw [h.inbox hopen, hitems, List.append_assoc]
            rfl
          exact ⟨⟨_, hsplit.symm⟩, fun _ => hsplit⟩
    · obtain ⟨hforwarded, hinbox⟩ := hs.kept ha
      rw [hforwarded]
      refine ⟨h.forwarded, fun hr => ?_⟩
      rw [hinbox hr]
      exact h.inbox hopen
  constructor
  case named => exact hsubjects.trans h.named
  case subscribed =>
    intro id hid
    rw [← h.named, ← hsubjects]
    exact hs.subscribed hb (fun id hid => h.named ▸ h.subscribed id hid) id hid
  case forwarded => exact hcame.1
  case inbox => exact hcame.2
  case cancelled => exact hcancelled ▸ h.cancelled
  case ended =>
    intro r hr
    obtain ⟨hok, hc⟩ := hs.result_eq hr
    exact ⟨hok, h.cancelled hc⟩

end ShardExact

theorem shardExact_shard (base : String) (id : UInt32) (inboxSize outboxSize : Nat)
    (told : Prop) :
    ShardExact (.below base) {} [] told (shard base id inboxSize outboxSize) where
  named := rfl
  subscribed id hid := by cases hid
  forwarded := List.nil_prefix
  inbox _ := rfl
  cancelled hc := by cases hc
  ended r hr := by cases hr

/-! ## The parent's queue -/

/-- What waits for the relay of the parent. Nothing is known of what waits for one that has
returned, which it does only in a regular way. -/
inductive Waits (subjects : Subjects) (b : Bus) : ParentRelay.Stage → List Bytes → Prop
  | subscribing : Waits subjects b .subscribing []
  | subscribingReady {id : Nat} {queue : List Bytes} : b.Listens id subjects.parent queue →
    Waits subjects b (.subscribingReady id) queue
  | serving {id handshakes : Nat} {queue : List Bytes} : b.Listens id subjects.parent queue →
    b.subject? handshakes = some subjects.ready → Waits subjects b (.serving id handshakes) queue
  | ended (queue : List Bytes) : Waits subjects b (.ended (.ok ())) queue

namespace Waits

variable {subjects : Subjects} {b b' : Bus} {stage : ParentRelay.Stage} {queue queue' : List Bytes}

/-- A call that adds to the parent's queue, or leaves it alone. -/
theorem mono (h : Waits subjects b stage queue) (hext : b.Extends b')
    (hsubscribing : stage = .subscribing → queue' = queue)
    (hlistens : ∀ id, b.Listens id subjects.parent queue → b'.Listens id subjects.parent queue') :
    Waits subjects b' stage queue' := by
  cases h with
  | subscribing =>
      rw [hsubscribing rfl]
      exact .subscribing
  | subscribingReady hl => exact .subscribingReady (hlistens _ hl)
  | serving hl hready => exact .serving (hlistens _ hl) (hext.subject? _ _ hready)
  | ended => exact .ended _

theorem subscribed (h : Waits subjects b stage queue) {id : Nat}
    (hid : stage.subscription? = some id) : b.subject? id = some subjects.parent := by
  cases h with
  | subscribing => cases hid
  | subscribingReady hl =>
      cases hid
      exact hl.subject?
  | serving hl hready =>
      cases hid
      exact hl.subject?
  | ended => cases hid

/-- The parent applies the envelopes of its queue from the front. -/
theorem step {now : Millis} {a : ParentRelay.Action} {p p' : ParentRelay.State}
    (hs : ParentRelay.Steps .standard now p a p') (hb : p.bus.Sound)
    (h : Waits p.subjects p.bus p.stage queue)
    (hready : p.subjects.ready ≠ p.subjects.parent) :
    ∃ queue', Waits p.subjects p'.bus p'.stage queue' ∧
      p'.applied ++ envelopes queue' = p.applied ++ envelopes queue := by
  cases hs with
  | subscribe hstage =>
      rw [hstage] at h
      cases h with
      | subscribing => exact ⟨[], .subscribingReady (Bus.listens_subscribe hb _), rfl⟩
  | subscribeReady envelopes hstage =>
      rw [hstage] at h
      cases h with
      | subscribingReady hl =>
          exact ⟨queue, .serving (hl.subscribe hb _) (Bus.listens_subscribe hb _).subject?, rfl⟩
  | stop envelopes handshakes hstage hc => exact ⟨queue, .ended queue, rfl⟩
  | take envelopes handshakes data hstage hread =>
      rw [hstage] at h
      cases h with
      | serving hl hhandshakes =>
          obtain ⟨rest, rfl⟩ := hl.eq_cons_of_reading hread
          have hserving := Waits.serving hl.advance_self
            ((hb.advance envelopes).subject? _ _ hhandshakes)
          refine ⟨rest, ?_, ?_⟩
          · unfold ParentRelay.State.receive
            split
            · exact hstage ▸ hserving
            · exact hstage ▸ hserving
          · unfold ParentRelay.State.receive
            cases hdecoded : Message.ofBytes data with
            | error e => simp [Fleet.envelopes, hdecoded, Except.toOption]
            | ok m => simp [Fleet.envelopes, hdecoded, Except.toOption]
  | greet envelopes handshakes data hstage hread =>
      rw [hstage] at h
      cases h with
      | serving hl hhandshakes =>
          have hne := hl.ne_of_subject? hhandshakes hready
          refine ⟨queue, ?_, rfl⟩
          rw [hstage]
          exact .serving (hl.advance_of_ne hne) ((hb.advance handshakes).subject? _ _ hhandshakes)

end Waits

/-! ## The parent -/

/-- The directory is what applying the envelopes makes of an empty one. -/
def Recorded (times : List Millis) (p : ParentRelay.State) : Prop :=
  ∃ moments, moments.Sublist times ∧ moments.length = p.applied.length ∧
    p.directory = applyAll (p.applied.zip moments)

theorem applyAll_snoc {applied : List Message} {moments : List Millis}
    (hlength : moments.length = applied.length) (m : Message) (now : Millis) :
    applyAll ((applied ++ [m]).zip (moments ++ [now])) =
      (applyAll (applied.zip moments)).deliver .standard m now := by
  rw [List.zip_append hlength.symm, applyAll, List.foldl_append]
  rfl

section Parent

variable {now : Millis} {a : ParentRelay.Action} {p p' : ParentRelay.State} {times : List Millis}

theorem Recorded.later (h : Recorded times p) (more : List Millis) :
    Recorded (times ++ more) p := by
  obtain ⟨moments, hsub, hlength, hdirectory⟩ := h
  exact ⟨moments, hsub.trans (List.sublist_append_left ..), hlength, hdirectory⟩

theorem Recorded.step (hs : ParentRelay.Steps .standard now p a p') (h : Recorded times p) :
    Recorded (times ++ takings [.parent now a]) p' := by
  cases hs with
  | take envelopes handshakes data hstage hread =>
      unfold ParentRelay.State.receive
      cases Message.ofBytes data with
      | error e => exact h.later _
      | ok m =>
          obtain ⟨moments, hsub, hlength, hdirectory⟩ := h
          refine ⟨moments ++ [now], hsub.append (List.Sublist.refl _), ?_, ?_⟩
          · simp [hlength]
          · rw [applyAll_snoc hlength, ← hdirectory]
  | subscribe hstage => exact h.later _
  | subscribeReady envelopes hstage => exact h.later _
  | stop envelopes handshakes hstage hc => exact h.later _
  | greet envelopes handshakes data hstage hread => exact h.later _

end Parent

end Fleet

end GossipDirectory
