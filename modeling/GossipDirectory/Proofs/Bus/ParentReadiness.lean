import GossipDirectory.Proofs.Bus.CallRecord
import GossipDirectory.Proofs.Bus.FleetExactness

/-!
# What the parent misses

A parent starts its shards first and subscribes afterwards. It receives all that its shards publish
for it from its subscriptions on, and nothing of what they published before. A shard that is fast
enough announces itself and forwards envelopes to nobody, so everything arrives exactly if every
shard announces itself after the parent has subscribed to the handshakes.

## Implementation notes

The parent subscribes to the envelopes before it subscribes to the handshakes, and a shard forwards
only after its announcement. This is why the announcements alone decide.
-/

namespace GossipDirectory

namespace ChildRelay

/-- The calls that a step of a relay makes on its bus. -/
def State.calls (s : State) : Action → List BusCall
  | .subscribe => [.subscribe s.subjects.children]
  | .announce => [.publish s.subjects.ready (readyMessage s.childId).toBytes]
  | .forward => (s.inbox.items.take 1).map fun m => .publish s.subjects.parent m.toBytes
  | _ => []

/-- A relay subscribes to nothing but the envelopes for all shards. -/
theorem State.eq_children_of_mem_calls {s : State} {a : Action} {subject : String}
    (h : .subscribe subject ∈ s.calls a) : subject = s.subjects.children := by
  cases a with
  | subscribe => simpa [State.calls] using h
  | forward =>
      obtain ⟨m, -, hm⟩ := List.mem_map.1 h
      cases hm
  | _ => simp [State.calls] at h

/-- The relay is still on the way to its announcement. -/
def Stage.Unannounced : Stage → Prop
  | .subscribing | .announcing _ => True
  | .serving _ | .publishing _ _ | .ended _ => False

namespace Steps

variable {s t : State} {a : Action} {subject : String}

/-- The listeners of a subject hear what a relay publishes under it, unless the relay itself listens
to that subject. -/
theorem tells (h : Steps s a t) (hb : s.bus.Sound) (hs : s.Subscribed)
    (hchildren : s.subjects.children ≠ subject) : s.bus.Tells t.bus subject (s.calls a) := by
  cases h with
  | subscribe hstage => exact hb.tells_subscribe subject _
  | announce id hstage => exact hb.tells_publish subject _ _
  | forward id m inbox hstage hreceive =>
      have hcalls : s.calls .forward = [.publish s.subjects.parent m.toBytes] := by
        rw [State.calls, (Channel.receive?_eq_some_iff.1 hreceive).1]
        rfl
      rw [hcalls]
      exact hb.tells_publish subject _ _
  | stop id hstage hc =>
      exact Bus.tells_leave (hs id (by rw [hstage]; rfl)) hchildren
  | skip id data hstage hread htext =>
      exact Bus.tells_advance (hs id (by rw [hstage]; rfl)) hchildren
  | take id data text stage hstage hread htext hnext =>
      exact Bus.tells_advance (hs id (by rw [hstage]; rfl)) hchildren
  | handOver id data outbox hstage hsend => exact .refl s.bus subject
  | discard id data hstage hheard => exact .refl s.bus subject

theorem unannounced (h : Steps s a t) (hs : s.stage.Unannounced) (ha : a ≠ .announce) :
    t.stage.Unannounced := by
  cases h with
  | subscribe hstage => trivial
  | announce id hstage => exact absurd rfl ha
  | _ => simp [Stage.Unannounced, *] at hs

theorem not_unannounced_of_forward (h : Steps s .forward t) : ¬ s.stage.Unannounced := by
  cases h with
  | forward id m inbox hstage hreceive => simp [Stage.Unannounced, hstage]

end Steps

end ChildRelay

namespace ParentRelay

/-- The subscription that the relay reads handshakes from. -/
def Stage.handshakes? : Stage → Option Nat
  | .serving _ id => some id
  | .subscribing | .subscribingReady _ | .ended _ => none

/-- The calls that a step of the relay makes on its bus. -/
def State.calls (s : State) : Action → List BusCall
  | .subscribe => [.subscribe s.subjects.parent]
  | .subscribeReady => [.subscribe s.subjects.ready]
  | _ => []

theorem Steps.calls_eq {registry : Registry} {now : Millis} {s t : State} {a : Action}
    (h : Steps registry now s a t) (hb : s.bus.Sound) : t.bus.calls = s.bus.calls ++ s.calls a := by
  cases h with
  | subscribe hstage => exact (hb.tells_subscribe s.subjects.parent _).calls
  | subscribeReady envelopes hstage => exact (hb.tells_subscribe s.subjects.ready _).calls
  | stop envelopes handshakes hstage hc => exact (List.append_nil _).symm
  | take envelopes handshakes data hstage hread =>
      unfold State.receive
      split
      · exact (List.append_nil _).symm
      · exact (List.append_nil _).symm
  | greet envelopes handshakes data hstage hread => exact (List.append_nil _).symm

end ParentRelay

namespace Fleet

/-- The moments at which the parent took a handshake. -/
def greetings (actions : List Action) : List Millis :=
  actions.filterMap fun
    | .parent now .greet => some now
    | _ => none

theorem greetings_append (actions more : List Action) :
    greetings (actions ++ more) = greetings actions ++ greetings more :=
  List.filterMap_append

/-! ## The subscriptions of the parent -/

/-- What the parent has from its subscriptions: so many envelopes and handshakes were taken, and
the rest waits. A subscription that is missing has not been made before. -/
inductive Hears (subjects : Subjects) (b : Bus) : ParentRelay.Stage → Nat → Nat → Prop
  | subscribing : .subscribe subjects.parent ∉ b.calls → .subscribe subjects.ready ∉ b.calls →
    Hears subjects b .subscribing 0 0
  | subscribingReady {id : Nat} : b.HasSince id subjects.parent 0 →
    .subscribe subjects.ready ∉ b.calls → Hears subjects b (.subscribingReady id) 0 0
  | serving {id handshakes n k : Nat} : b.HasSince id subjects.parent n →
    b.HasSince handshakes subjects.ready k → Hears subjects b (.serving id handshakes) n k
  | ended {result : Except Failure Unit} {n k : Nat} : Hears subjects b (.ended result) n k

namespace Hears

variable {subjects : Subjects} {b b' : Bus} {stage : ParentRelay.Stage} {n k : Nat}

theorem envelopes (h : Hears subjects b stage n k) {id : Nat}
    (hid : stage.subscription? = some id) : b.HasSince id subjects.parent n := by
  cases h with
  | subscribing hp hr => cases hid
  | subscribingReady hp hr =>
      cases hid
      exact hp
  | serving hp hr =>
      cases hid
      exact hp
  | ended => cases hid

theorem handshakes (h : Hears subjects b stage n k) {id : Nat}
    (hid : stage.handshakes? = some id) : b.HasSince id subjects.ready k := by
  cases h with
  | subscribing hp hr => cases hid
  | subscribingReady hp hr => cases hid
  | serving hp hr =>
      cases hid
      exact hr
  | ended => cases hid

/-- What others do to the bus does not concern the parent's subscriptions otherwise. -/
theorem tells {calls : List BusCall} (h : Hears subjects b stage n k)
    (hparent : b.Tells b' subjects.parent calls) (hready : b.Tells b' subjects.ready calls)
    (hquiet : ∀ subject, .subscribe subject ∈ calls → subject = subjects.children)
    (hdistinct : subjects.children ≠ subjects.parent ∧ subjects.ready ≠ subjects.parent ∧
      subjects.ready ≠ subjects.children) : Hears subjects b' stage n k := by
  have hnew {subject : String} (hold : .subscribe subject ∉ b.calls)
      (hother : subject ≠ subjects.children) : .subscribe subject ∉ b'.calls := by
    rw [hparent.calls, List.mem_append, not_or]
    exact ⟨hold, fun hmem => hother (hquiet subject hmem)⟩
  cases h with
  | subscribing hp hr =>
      exact .subscribing (hnew hp hdistinct.1.symm) (hnew hr hdistinct.2.2)
  | subscribingReady hp hr =>
      exact .subscribingReady (hp.tells hparent) (hnew hr hdistinct.2.2)
  | serving hp hr => exact .serving (hp.tells hparent) (hr.tells hready)
  | ended => exact .ended

theorem step {now : Millis} {a : ParentRelay.Action} {p p' : ParentRelay.State}
    (hs : ParentRelay.Steps .standard now p a p') (hb : p.bus.Sound)
    (h : Hears p.subjects p.bus p.stage n k) (hdistinct : p.subjects.ready ≠ p.subjects.parent) :
    Hears p.subjects p'.bus p'.stage (n + (takings [.parent now a]).length)
      (k + (greetings [.parent now a]).length) := by
  cases hs with
  | subscribe hstage =>
      rw [hstage] at h
      cases h with
      | subscribing hp hr =>
          refine .subscribingReady (Bus.hasSince_subscribe hb hp) ?_
          rw [(hb.tells_subscribe p.subjects.parent _).calls, List.mem_append, not_or]
          refine ⟨hr, ?_⟩
          simp [hdistinct]
  | subscribeReady envelopes hstage =>
      rw [hstage] at h
      cases h with
      | subscribingReady hp hr =>
          exact .serving (hp.tells (hb.tells_subscribe p.subjects.parent _))
            (Bus.hasSince_subscribe hb hr)
  | stop envelopes handshakes hstage hc => exact .ended
  | take envelopes handshakes data hstage hread =>
      rw [hstage] at h
      cases h with
      | serving hp hr =>
          have hserving := Hears.serving (hp.advance hread)
            (hr.tells (Bus.tells_advance hp.listens.subject? hdistinct.symm))
          unfold ParentRelay.State.receive
          split
          · exact hstage ▸ hserving
          · exact hstage ▸ hserving
  | greet envelopes handshakes data hstage hread =>
      rw [hstage] at h
      cases h with
      | serving hp hr =>
          rw [hstage]
          exact .serving (hp.tells (Bus.tells_advance hr.listens.subject? hdistinct))
            (hr.advance hread)

end Hears

/-! ## Announcements and the record of calls -/

/-- Every shard announces itself after the parent has subscribed to the handshakes. -/
def Patient (actions : List Action) : Prop :=
  ∀ before i after, actions = before ++ .shard i .announce :: after →
    ∃ now, .parent now .subscribeReady ∈ before

theorem patient_snoc_iff {actions : List Action} {a : Action} :
    Patient (actions ++ [a]) ↔ Patient actions ∧
      ∀ i, a = .shard i .announce → ∃ now, .parent now .subscribeReady ∈ actions := by
  constructor
  · intro h
    refine ⟨fun before i after he => h before i (after ++ [a]) ?_, fun i ha => h actions i [] ?_⟩
    · rw [he, List.append_assoc, List.cons_append]
    · rw [ha]
  · rintro ⟨h, ha⟩ before i after he
    rcases List.eq_nil_or_concat after with rfl | ⟨rest, last, rfl⟩
    · obtain ⟨rfl, hlast⟩ := List.append_inj' he rfl
      exact ha i (List.singleton_inj.1 hlast)
    · have he' : actions ++ [a] = before ++ .shard i .announce :: rest ++ [last] := by
        rw [he, List.concat_eq_append, List.append_assoc, List.cons_append]
      exact h before i rest (List.append_inj' he' rfl).1

theorem Patient.subscribed {actions : List Action} (h : Patient actions) {i : Nat}
    (hi : .shard i .announce ∈ actions) : ∃ now, .parent now .subscribeReady ∈ actions := by
  obtain ⟨before, after, rfl⟩ := List.append_of_mem hi
  obtain ⟨now, hnow⟩ := h before i after rfl
  exact ⟨now, List.mem_append_left _ hnow⟩

/-- Nothing was published for the parent before it had subscribed. -/
def Unmissed (subjects : Subjects) (calls : List BusCall) : Prop :=
  Bus.published subjects.parent calls = Bus.publishedSince subjects.parent calls ∧
    Bus.published subjects.ready calls = Bus.publishedSince subjects.ready calls

theorem unmissed_snoc_iff {subjects : Subjects} {calls : List BusCall} {c : BusCall} :
    Unmissed subjects (calls ++ [c]) ↔ Unmissed subjects calls ∧
      (Bus.published subjects.parent [c] ≠ [] → .subscribe subjects.parent ∈ calls) ∧
      (Bus.published subjects.ready [c] ≠ [] → .subscribe subjects.ready ∈ calls) := by
  rw [Unmissed, Unmissed, Bus.published_eq_since_snoc_iff, Bus.published_eq_since_snoc_iff]
  exact and_and_and_comm

/-- The calls that go with an action, after others. -/
inductive Says (subjects : Subjects) (actions : List Action) (calls : List BusCall) :
    Action → List BusCall → Prop
  | announce (i : Nat) (data : Bytes) :
    Says subjects actions calls (.shard i .announce) [.publish subjects.ready data]
  | forward (i : Nat) (data : Bytes) : (∃ j, .shard j .announce ∈ actions) →
    Says subjects actions calls (.shard i .forward) [.publish subjects.parent data]
  | join (i : Nat) :
    Says subjects actions calls (.shard i .subscribe) [.subscribe subjects.children]
  | subscribe (now : Millis) :
    Says subjects actions calls (.parent now .subscribe) [.subscribe subjects.parent]
  | subscribeReady (now : Millis) : .subscribe subjects.parent ∈ calls →
    Says subjects actions calls (.parent now .subscribeReady) [.subscribe subjects.ready]
  | silent (a : Action) : (∀ i, a ≠ .shard i .announce) →
    (∀ now, a ≠ .parent now .subscribeReady) → Says subjects actions calls a []

/-- How the record of calls goes with the actions so far. -/
structure Order (subjects : Subjects) (actions : List Action) (calls : List BusCall) : Prop where
  asked : .subscribe subjects.ready ∈ calls ↔ ∃ now, .parent now .subscribeReady ∈ actions
  ordered : .subscribe subjects.ready ∈ calls → .subscribe subjects.parent ∈ calls
  unmissed : Unmissed subjects calls ↔ Patient actions

theorem Order.step {base : String} {actions : List Action} {calls more : List BusCall} {a : Action}
    (h : Order (.below base) actions calls) (hs : Says (.below base) actions calls a more) :
    Order (.below base) (actions ++ [a]) (calls ++ more) := by
  obtain ⟨hchildren, hready, hother⟩ := Subjects.below_distinct base
  have hasked := h.asked
  cases hs with
  | announce i data =>
      refine ⟨by simpa using hasked, by simpa using h.ordered, ?_⟩
      rw [unmissed_snoc_iff, patient_snoc_iff, Bus.published_publish_of_ne hready,
        Bus.published_publish_self, h.unmissed, hasked]
      simp
  | forward i data hannounced =>
      refine ⟨by simpa using hasked, by simpa using h.ordered, ?_⟩
      rw [unmissed_snoc_iff, patient_snoc_iff, Bus.published_publish_self,
        Bus.published_publish_of_ne hready.symm, h.unmissed]
      have hsubscribed (hp : Patient actions) :
          .subscribe (Subjects.below base).parent ∈ calls := by
        obtain ⟨j, hj⟩ := hannounced
        exact h.ordered (hasked.2 (hp.subscribed hj))
      simpa using hsubscribed
  | join i =>
      refine ⟨by simpa [hother] using hasked, by simpa [hother, hchildren.symm] using h.ordered, ?_⟩
      rw [unmissed_snoc_iff, patient_snoc_iff, h.unmissed]
      simp [Bus.published_subscribe]
  | subscribe now =>
      refine ⟨by simpa [hready] using hasked, by simp, ?_⟩
      rw [unmissed_snoc_iff, patient_snoc_iff, h.unmissed]
      simp [Bus.published_subscribe]
  | subscribeReady now hparent =>
      refine ⟨by simp, by simp [hparent], ?_⟩
      rw [unmissed_snoc_iff, patient_snoc_iff, h.unmissed]
      simp [Bus.published_subscribe]
  | silent _ hannounce hask =>
      rw [List.append_nil]
      refine ⟨?_, h.ordered, ?_⟩
      · rw [hasked]
        simp only [List.mem_append, List.mem_singleton, (hask _).symm, or_false]
      · rw [patient_snoc_iff, h.unmissed]
        simp [hannounce]

/-! ## Runs -/

/-- The relay of a shard, given what has happened. -/
structure Placed (subjects : Subjects) (b : Bus) (actions : List Action)
    (t : ChildRelay.State) : Prop where
  named : t.subjects = subjects
  subscribed : ∀ id, t.stage.subscription? = some id → b.subject? id = some subjects.children
  announced : ¬ t.stage.Unannounced → ∃ i, .shard i .announce ∈ actions

theorem Placed.later {subjects : Subjects} {b b' : Bus} {actions : List Action}
    {t : ChildRelay.State} (h : Placed subjects b actions t) (hext : b.Extends b') (a : Action) :
    Placed subjects b' (actions ++ [a]) t where
  named := h.named
  subscribed id hid := hext.subject? id _ (h.subscribed id hid)
  announced hs := by
    obtain ⟨i, hi⟩ := h.announced hs
    exact ⟨i, List.mem_append_left _ hi⟩

/-- Nobody but the shards publishes for the parent. -/
def Private (base : String) (_ : State) : Action → Prop
  | .outside subject _ =>
    subject ≠ (Subjects.below base).parent ∧ subject ≠ (Subjects.below base).ready
  | _ => True

/-- What holds at every moment of a fleet below a base subject, after some actions. -/
structure Attentive (base : String) (actions : List Action) (s : State) : Prop where
  bus : s.bus.Sound
  named : s.parent.subjects = .below base
  shards : ∀ t ∈ s.relays, Placed (.below base) s.bus actions t
  parent : Hears (.below base) s.bus s.parent.stage (takings actions).length
    (greetings actions).length
  order : Order (.below base) actions s.bus.calls

theorem attentive_launch (base : String) (plan : List (UInt32 × Nat × Nat)) :
    Attentive base [] (launch base plan) where
  bus := Bus.sound_empty
  named := rfl
  shards := by
    intro t ht
    obtain ⟨⟨id, inboxSize, outboxSize⟩, -, rfl⟩ := List.mem_map.1 ht
    exact ⟨rfl, nofun, fun hs => absurd trivial hs⟩
  parent := .subscribing List.not_mem_nil List.not_mem_nil
  order := by
    refine ⟨by simp [launch, make], by simp [launch, make], iff_of_true ⟨rfl, rfl⟩ ?_⟩
    intro before i after he
    simp at he

namespace Attentive

variable {base : String} {actions : List Action} {s t : State} {a : Action}
  {more : List BusCall}

/-- A step that leaves the parent's relay to itself. -/
theorem of_others (h : Attentive base actions s) (hext : s.bus.Extends t.bus)
    (hparent : s.bus.Tells t.bus (Subjects.below base).parent more)
    (hready : s.bus.Tells t.bus (Subjects.below base).ready more)
    (htold : Says (.below base) actions s.bus.calls a more)
    (hquiet : ∀ subject, .subscribe subject ∈ more → subject = (Subjects.below base).children)
    (hnone : takings [a] = [] ∧ greetings [a] = [])
    (hsame : t.parent.subjects = s.parent.subjects ∧ t.parent.stage = s.parent.stage)
    (hshards : ∀ r ∈ t.relays, Placed (.below base) t.bus (actions ++ [a]) r) :
    Attentive base (actions ++ [a]) t where
  bus := hext.sound
  named := hsame.1.trans h.named
  shards := hshards
  parent := by
    rw [takings_append, greetings_append, hnone.1, hnone.2, List.append_nil, List.append_nil,
      hsame.2]
    exact h.parent.tells hparent hready hquiet (Subjects.below_distinct base)
  order := by
    rw [hparent.calls]
    exact h.order.step htold

/-- A step during which nobody calls the bus. -/
theorem of_silent (h : Attentive base actions s) (hext : s.bus.Extends t.bus)
    (hparent : s.bus.Tells t.bus (Subjects.below base).parent [])
    (hready : s.bus.Tells t.bus (Subjects.below base).ready [])
    (ha : (∀ i, a ≠ .shard i .announce) ∧ ∀ now b, a ≠ .parent now b)
    (hsame : t.parent.subjects = s.parent.subjects ∧ t.parent.stage = s.parent.stage)
    (hshards : ∀ r ∈ t.relays, Placed (.below base) t.bus (actions ++ [a]) r) :
    Attentive base (actions ++ [a]) t := by
  refine h.of_others hext hparent hready (.silent a ha.1 fun now => ha.2 now _) (by simp) ?_ hsame
    hshards
  cases a with
  | parent now b => exact absurd rfl (ha.2 now b)
  | _ => exact ⟨rfl, rfl⟩

theorem parent_step {now : Millis} {a : ParentRelay.Action} {p : ParentRelay.State}
    (h : Attentive base actions s)
    (hp : ParentRelay.step .standard now { s.parent with bus := s.bus } a = some p) :
    Attentive base (actions ++ [.parent now a]) { s with parent := p, bus := p.bus } := by
  have hdistinct := Subjects.below_distinct base
  have hsubscribed : { s.parent with bus := s.bus }.Subscribed := by
    intro id hid
    rw [h.named]
    exact (h.parent.envelopes hid).listens.subject?
  have hsteps := ParentRelay.steps_of_step h.bus hsubscribed hp
  have hext := hsteps.extends_bus h.bus
  have hnamed : p.subjects = .below base := hsteps.constant.1.trans h.named
  have hcalls := hsteps.calls_eq h.bus
  have htold : Says (.below base) actions s.bus.calls (.parent now a)
      ({ s.parent with bus := s.bus }.calls a) := by
    change Says _ _ _ _ (s.parent.calls a)
    cases hsteps with
    | subscribe hstage =>
        rw [ParentRelay.State.calls, h.named]
        exact .subscribe now
    | subscribeReady envelopes hstage =>
        rw [ParentRelay.State.calls, h.named]
        change s.parent.stage = _ at hstage
        have hid : s.parent.stage.subscription? = some envelopes := by
          rw [hstage]
          rfl
        exact .subscribeReady now (h.parent.envelopes hid).subscribed
    | stop => exact .silent _ (fun _ => Action.noConfusion) (fun _ => by simp)
    | take => exact .silent _ (fun _ => Action.noConfusion) (fun _ => by simp)
    | greet => exact .silent _ (fun _ => Action.noConfusion) (fun _ => by simp)
  constructor
  case bus => exact hext.sound
  case named => exact hnamed
  case shards => exact fun r hr => (h.shards r hr).later hext _
  case parent =>
    rw [takings_append, greetings_append, List.length_append, List.length_append]
    have hhears := Hears.step hsteps h.bus (h.named ▸ h.parent) (h.named ▸ hdistinct.2.1)
    exact h.named ▸ hhears
  case order =>
    rw [hcalls]
    exact h.order.step htold

section Shard

variable {i : Nat} {r r' : ChildRelay.State}

/-- The relays after one of them changed. -/
theorem placed_setShard (h : Attentive base actions s) (hr : s.shards[i]? = some r)
    (hext : s.bus.Extends r'.bus)
    (hplaced : Placed (.below base) r'.bus (actions ++ [a]) r') :
    ∀ t ∈ (s.setShard i r').relays, Placed (.below base) r'.bus (actions ++ [a]) t := by
  intro t ht
  rw [(Exact.relays_set hr r').2] at ht
  rcases List.mem_or_eq_of_mem_set ht with ht | rfl
  · exact (h.shards t ht).later hext a
  · exact hplaced

theorem shard_step {a : ChildRelay.Action} (h : Attentive base actions s)
    (hr : s.shards[i]? = some r)
    (hr' : ChildRelay.step { r with bus := s.bus } a = some r') :
    Attentive base (actions ++ [.shard i a]) (s.setShard i r') := by
  have hold := h.shards r (List.mem_of_getElem? (Exact.relays_set hr r').1)
  obtain ⟨hchildren, hready, hother⟩ := Subjects.below_distinct base
  have hsubscribed : ChildRelay.State.Subscribed { r with bus := s.bus } := by
    intro id hid
    exact hold.named ▸ hold.subscribed id hid
  have hsteps := ChildRelay.steps_of_step h.bus hsubscribed hr'
  have hext := hsteps.extends_bus h.bus
  have hnamed : r'.subjects = .below base := hsteps.constant.1.trans hold.named
  have hplaced : Placed (.below base) r'.bus (actions ++ [.shard i a]) r' := by
    constructor
    case named => exact hnamed
    case subscribed => exact fun id hid => hnamed ▸ hsteps.subscribed h.bus hsubscribed id hid
    case announced =>
      intro hs'
      by_cases ha : a = .announce
      · exact ⟨i, by simp [ha]⟩
      · have hs : ¬ r.stage.Unannounced := fun hs => hs' (hsteps.unannounced hs ha)
        obtain ⟨j, hj⟩ := hold.announced hs
        exact ⟨j, List.mem_append_left _ hj⟩
  have htold : Says (.below base) actions s.bus.calls (.shard i a)
      ({ r with bus := s.bus }.calls a) := by
    rw [← hold.named]
    by_cases hforward : a = .forward
    · subst hforward
      have hannounced := hold.announced hsteps.not_unannounced_of_forward
      cases hsteps with
      | forward id m inbox hstage hreceive =>
          have hitems : r.inbox.items = m :: inbox.items :=
            (Channel.receive?_eq_some_iff.1 hreceive).1
          rw [ChildRelay.State.calls, hitems]
          exact .forward i m.toBytes hannounced
    · cases a with
      | subscribe => exact .join i
      | announce => exact .announce i _
      | forward => exact absurd rfl hforward
      | stop => exact .silent _ (fun _ => by simp) (fun _ => Action.noConfusion)
      | take => exact .silent _ (fun _ => by simp) (fun _ => Action.noConfusion)
      | handOver => exact .silent _ (fun _ => by simp) (fun _ => Action.noConfusion)
      | discard => exact .silent _ (fun _ => by simp) (fun _ => Action.noConfusion)
  have htells {subject : String} (hne : (Subjects.below base).children ≠ subject) :
      s.bus.Tells r'.bus subject ({ r with bus := s.bus }.calls a) := by
    rw [← hold.named] at hne
    exact hsteps.tells h.bus hsubscribed hne
  refine h.of_others hext (htells hchildren) (htells hother.symm) htold ?_ ⟨rfl, rfl⟩ ⟨rfl, rfl⟩
    (h.placed_setShard hr hext hplaced)
  intro subject hmem
  rw [← hold.named]
  exact ChildRelay.State.eq_children_of_mem_calls hmem

end Shard

theorem step (h : Attentive base actions s) (ha : Private base s a) (hs : Steps s a t) :
    Attentive base (actions ++ [a]) t := by
  have hsame (subject : String) : s.bus.Tells s.bus subject [] := .refl s.bus subject
  cases hs with
  | start first rest hwaiting =>
      refine h.of_silent (.refl h.bus) (hsame _) (hsame _) (by simp) ⟨rfl, rfl⟩ fun r hr => ?_
      have hmem : r ∈ s.relays := by
        simpa [State.relays, hwaiting] using hr
      exact (h.shards r hmem).later (.refl h.bus) _
  | parent now a p hp => exact h.parent_step hp
  | shard i a r r' hr hr' => exact h.shard_step hr hr'
  | deliver i m r hr =>
      have hold := h.shards r (List.mem_of_getElem? (Exact.relays_set hr r).1)
      have hplaced := hold.later (.refl h.bus) (.deliver i m)
      refine h.of_silent (.refl h.bus) (hsame _) (hsame _) (by simp) ⟨rfl, rfl⟩
        (h.placed_setShard hr (.refl h.bus) ?_)
      exact ⟨hplaced.named, hplaced.subscribed, hplaced.announced⟩
  | absorb i r outbox hr =>
      have hold := h.shards r (List.mem_of_getElem? (Exact.relays_set hr r).1)
      have hplaced := hold.later (.refl h.bus) (.absorb i)
      refine h.of_silent (.refl h.bus) (hsame _) (hsame _) (by simp) ⟨rfl, rfl⟩
        (h.placed_setShard hr (.refl h.bus) ?_)
      exact ⟨hplaced.named, hplaced.subscribed, hplaced.announced⟩
  | outside subject data =>
      have hext := h.bus.spread subject data
      have hnot {other : String} (hne : subject ≠ other) :
          s.bus.Tells (s.bus.spread subject data) other [] :=
        .silent rfl fun _ _ hl => hl.spread_of_ne hne data
      exact h.of_silent hext (hnot ha.1) (hnot ha.2) (by simp) ⟨rfl, rfl⟩
        fun r hr => (h.shards r hr).later hext _
  | cancel =>
      refine h.of_silent (.refl h.bus) (hsame _) (hsame _) (by simp) ⟨rfl, rfl⟩ fun r hr => ?_
      rw [State.relays, ← List.map_append] at hr
      obtain ⟨old, hmem, rfl⟩ := List.mem_map.1 hr
      have hplaced := (h.shards old hmem).later (.refl h.bus) .cancel
      exact ⟨hplaced.named, hplaced.subscribed, hplaced.announced⟩

end Attentive

/-- A fleet after some actions, if nobody but its shards publishes for the parent. -/
def Undisturbed (base : String) (plan : List (UInt32 × Nat × Nat)) : List Action → State → Prop :=
  Reaches step (Private base) (launch base plan)

theorem Undisturbed.attentive {base : String} {plan : List (UInt32 × Nat × Nat)}
    {actions : List Action} {s : State} (hrun : Undisturbed base plan actions s) :
    Attentive base actions s := by
  induction hrun with
  | start => exact attentive_launch base plan
  | step _ ha ht ih => exact ih.step ha (steps_of_step ht)

/-- The parent has everything exactly if every shard waited for it. -/
theorem Attentive.received_iff {base : String} {actions : List Action} {s : State}
    (h : Attentive base actions s) (hopen : s.parent.result? = none) :
    (s.bus.Received s.parent.stage.subscription? (Subjects.below base).parent
        (takings actions).length ∧
      s.bus.Received s.parent.stage.handshakes? (Subjects.below base).ready
        (greetings actions).length) ↔ Patient actions := by
  rw [← h.order.unmissed, Unmissed]
  have hhears := h.parent
  generalize (takings actions).length = n at hhears ⊢
  generalize (greetings actions).length = k at hhears ⊢
  unfold ParentRelay.State.result? at hopen
  generalize s.parent.stage = stage at hopen hhears ⊢
  cases hhears with
  | subscribing hp hr =>
      rw [Bus.publishedSince_of_not_mem hp, Bus.publishedSince_of_not_mem hr]
      exact Iff.rfl
  | subscribingReady hp hr =>
      rw [Bus.publishedSince_of_not_mem hr]
      exact and_congr hp.received_iff Iff.rfl
  | serving hp hr => exact and_congr hp.received_iff hr.received_iff
  | ended => cases hopen

/-! ## A shard that is too fast -/

section Hasty

variable {base : String} {plan : List (UInt32 × Nat × Nat)} {actions : List Action} {s t : State}
  {i : Nat} {r r' : ChildRelay.State}

/-- The parent starts all shards that are waiting. -/
theorem reaches_started (base : String) (s : State) :
    Reaches step (Private base) s (List.replicate s.waiting.length .start)
      { s with waiting := [], shards := s.shards ++ s.waiting } := by
  obtain ⟨bus, parent, waiting, shards⟩ := s
  induction waiting generalizing shards with
  | nil =>
      rw [List.append_nil]
      exact .start
  | cons first rest ih =>
      have hfirst : Reaches step (Private base) ⟨bus, parent, first :: rest, shards⟩ [.start]
          ⟨bus, parent, rest, shards ++ [first]⟩ := Reaches.start.step trivial rfl
      have hrest := hfirst.trans (ih (shards ++ [first]))
      rw [List.append_assoc] at hrest
      exact hrest

theorem relay?_setShard (hi : i < s.shards.length) (r : ChildRelay.State) :
    (s.setShard i r).relay? i = some r := by
  rw [State.relay?, State.setShard, List.getElem?_set_self hi]
  rfl

theorem setShard_setShard (s : State) (i : Nat) (r r' : ChildRelay.State) :
    (s.setShard i r).setShard i r' = s.setShard i r' := by
  simp [State.setShard]

/-- One shard goes on. -/
theorem reaches_shard {a : ChildRelay.Action} (hi : i < s.shards.length)
    (hrun : Reaches step (Private base) t actions (s.setShard i r))
    (hstep : ChildRelay.step r a = some r') :
    Reaches step (Private base) t (actions ++ [.shard i a]) (s.setShard i r') := by
  have hprivate : Private base (s.setShard i r) (.shard i a) := trivial
  apply hrun.step hprivate
  simp [step, relay?_setShard hi, hstep, setShard_setShard]

theorem reaches_deliver {m : Message} {inbox : Channel Message} (hi : i < s.shards.length)
    (hrun : Reaches step (Private base) t actions (s.setShard i r))
    (hsend : r.inbox.send? m = some inbox) :
    Reaches step (Private base) t (actions ++ [.deliver i m]) (s.setShard i { r with inbox }) := by
  have hprivate : Private base (s.setShard i r) (.deliver i m) := trivial
  apply hrun.step hprivate
  simp [step, relay?_setShard hi, hsend, setShard_setShard]

/-- The parent goes on once its shards are started. -/
theorem reaches_parent {a : ParentRelay.Action} {p : ParentRelay.State} (hstarted : s.waiting = [])
    (hrun : Reaches step (Private base) t actions s)
    (hstep : ParentRelay.step .standard 0 { s.parent with bus := s.bus } a = some p) :
    Reaches step (Private base) t (actions ++ [.parent 0 a])
      { s with parent := p, bus := p.bus } := by
  have hprivate : Private base s (.parent 0 a) := trivial
  apply hrun.step hprivate
  simp [step, hstarted, hstep]

/-- A shard announces itself and forwards an envelope before the parent subscribes. -/
def hasty (shards i : Nat) (m : Message) : List Action :=
  List.replicate shards .start ++ [.shard i .subscribe] ++ [.shard i .announce] ++ [.deliver i m] ++
    [.shard i .forward] ++ [.parent 0 .subscribe] ++ [.parent 0 .subscribeReady]

theorem exists_hasty (base : String) {id : UInt32} {inboxSize outboxSize : Nat}
    (hplan : plan[i]? = some (id, inboxSize, outboxSize)) (hroom : 0 < inboxSize) (m : Message) :
    ∃ s, Undisturbed base plan (hasty plan.length i m) s ∧ s.parent.stage = .serving 1 2 ∧
      s.bus.calls = [.subscribe (Subjects.below base).children,
        .publish (Subjects.below base).ready (readyMessage id).toBytes,
        .publish (Subjects.below base).parent m.toBytes,
        .subscribe (Subjects.below base).parent, .subscribe (Subjects.below base).ready] := by
  let started : State := { launch base plan with
    waiting := [], shards := (launch base plan).waiting }
  obtain ⟨hplanned, hget⟩ := List.getElem?_eq_some_iff.1 hplan
  have hi : i < started.shards.length := by
    simpa [started, launch, make] using hplanned
  have hshard : started.shards[i] = shard base id inboxSize outboxSize := by
    simp [started, launch, make, hget]
  have hall : Undisturbed base plan (List.replicate plan.length .start)
      (started.setShard i (shard base id inboxSize outboxSize)) := by
    have hset : started.shards.set i (shard base id inboxSize outboxSize) = started.shards := by
      rw [← hshard, List.set_getElem_self]
    have hlength : (launch base plan).waiting.length = plan.length := List.length_map _
    have hrun := reaches_started base (launch base plan)
    rw [hlength] at hrun
    rw [State.setShard, hset]
    exact hrun
  have hsent : ({ capacity := inboxSize } : Channel Message).send? m =
      some { capacity := inboxSize, items := [m] } :=
    Channel.send?_eq_some_iff.2 ⟨rfl, hroom, rfl⟩
  have hannounced := reaches_shard (a := .announce) hi
    (reaches_shard (a := .subscribe) hi hall rfl) rfl
  have hforwarded := reaches_shard (a := .forward) hi (reaches_deliver hi hannounced hsent) rfl
  have hsubscribed := reaches_parent (a := .subscribe) rfl hforwarded rfl
  exact ⟨_, reaches_parent (a := .subscribeReady) rfl hsubscribed rfl, rfl, rfl⟩

end Hasty

/-- The parent has exactly what its shards published for it since it subscribed, so it has
everything exactly if every shard announces itself after the parent has subscribed to the
handshakes. Nothing makes a shard wait: each shard of a fleet can be so fast that its handshake and
an envelope reach nobody. -/
theorem received_iff_patient (base : String) (plan : List (UInt32 × Nat × Nat)) :
    (∀ actions s, Undisturbed base plan actions s →
      (∀ id, s.parent.stage.subscription? = some id →
        s.bus.HasSince id (Subjects.below base).parent (takings actions).length) ∧
      (∀ id, s.parent.stage.handshakes? = some id →
        s.bus.HasSince id (Subjects.below base).ready (greetings actions).length) ∧
      (s.parent.result? = none →
        ((s.bus.Received s.parent.stage.subscription? (Subjects.below base).parent
            (takings actions).length ∧
          s.bus.Received s.parent.stage.handshakes? (Subjects.below base).ready
            (greetings actions).length) ↔ Patient actions))) ∧
    ∀ (i : Nat) (id : UInt32) (inboxSize outboxSize : Nat),
      plan[i]? = some (id, inboxSize, outboxSize) → 0 < inboxSize → ∀ m : Message,
        ∃ actions s, Undisturbed base plan actions s ∧ .cancel ∉ actions ∧
          Bus.published (Subjects.below base).parent s.bus.calls = [m.toBytes] ∧
          Bus.published (Subjects.below base).ready s.bus.calls = [(readyMessage id).toBytes] ∧
          takings actions = [] ∧ greetings actions = [] ∧
          ∃ envelopes handshakes, s.parent.stage = .serving envelopes handshakes ∧
            s.bus.Listens envelopes (Subjects.below base).parent [] ∧
            s.bus.Listens handshakes (Subjects.below base).ready [] := by
  constructor
  · intro actions s hrun
    have hattentive := hrun.attentive
    exact ⟨fun _ => hattentive.parent.envelopes, fun _ => hattentive.parent.handshakes,
      hattentive.received_iff⟩
  · intro i id inboxSize outboxSize hplan hroom m
    obtain ⟨s, hrun, hstage, hcalls⟩ := exists_hasty base hplan hroom m
    obtain ⟨hchildren, hready, hother⟩ := Subjects.below_distinct base
    have hattentive := hrun.attentive
    have henvelopes := (hattentive.parent.envelopes (by rw [hstage]; rfl)).listens
    have hhandshakes := (hattentive.parent.handshakes (by rw [hstage]; rfl)).listens
    have hnoEnvelope : Bus.publishedSince (Subjects.below base).parent s.bus.calls = [] := by
      simp [hcalls, Bus.publishedSince, since, Bus.published, hchildren]
    have hnoHandshake : Bus.publishedSince (Subjects.below base).ready s.bus.calls = [] := by
      simp [hcalls, Bus.publishedSince, since, Bus.published, hother.symm, hready.symm]
    rw [hnoEnvelope, List.drop_nil] at henvelopes
    rw [hnoHandshake, List.drop_nil] at hhandshakes
    refine ⟨_, s, hrun, by simp [hasty], ?_, ?_, by simp [hasty, takings],
      by simp [hasty, greetings], 1, 2, hstage, henvelopes, hhandshakes⟩
    · simp [hcalls, Bus.published, hready]
    · simp [hcalls, Bus.published, hready.symm]

/-- The only shard of a fleet is faster than its parent, which then has no handshake. -/
theorem hastyShard_missed :
    ∃ actions s id, Undisturbed "s" [(1, 4, 4)] actions s ∧
      s.bus.HasSince id "s.ready" 0 ∧ s.bus.Listens id "s.ready" [] ∧
      ¬ s.bus.Received (some id) "s.ready" 0 ∧ ¬ Patient actions := by
  obtain ⟨hruns, hhasty⟩ := received_iff_patient "s" [(1, 4, 4)]
  obtain ⟨actions, s, hrun, -, -, hpublished, -, hgreetings, envelopes, handshakes, hstage, -,
    hnobody⟩ := hhasty 0 1 4 4 rfl (by decide) (note "a")
  obtain ⟨-, hsince, hreceived⟩ := hruns actions s hrun
  rw [hstage] at hsince hreceived
  rw [hgreetings] at hsince hreceived
  have hmissed : ¬ s.bus.Received (some handshakes) "s.ready" 0 := by
    rintro ⟨-, hl⟩
    rw [show Bus.published "s.ready" s.bus.calls = _ from hpublished] at hl
    have hqueue := hl.queue_eq.symm.trans hnobody.queue_eq
    cases hqueue
  refine ⟨actions, s, handshakes, hrun, hsince handshakes rfl, hnobody, hmissed, fun hpatient => ?_⟩
  have hopen : s.parent.result? = none := by
    rw [ParentRelay.State.result?, hstage]
  exact hmissed ((hreceived hopen).2 hpatient).2

end Fleet

end GossipDirectory
