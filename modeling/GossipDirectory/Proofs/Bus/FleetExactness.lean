import GossipDirectory.Proofs.Bus.FleetParts
import GossipDirectory.Proofs.Collection.Interleaving
import GossipDirectory.Proofs.Collection.Outcome
import GossipDirectory.Proofs.Collection.Runs
import GossipDirectory.Proofs.Envelope.RoundTrip

/-!
# What the parent applies

The parent applies what the meshes of its shards delivered: all envelopes of one shard in their
order, those of different shards in any order, each once and unchanged. Nothing else that the bus
carries is applied, and no envelope makes a relay return.

## Implementation notes

A fleet is orderly if the parent subscribes before a shard forwards and nobody else sends envelopes
to it. Envelopes without floats are read back as they were written, which is why these are the ones
that meshes deliver here.
-/

namespace GossipDirectory

namespace Fleet

/-- The parent subscribes before a shard forwards, meshes deliver envelopes that they decoded and
that hold no floats, and nobody but the shards sends envelopes to the parent. -/
def Orderly (base : String) (s : State) : Action → Prop
  | .shard _ .forward => s.parent.stage ≠ .subscribing
  | .deliver _ m => (∃ bytes, Message.ofBytes bytes = .ok m) ∧ m.payload.IntegersOnly
  | .outside subject data =>
    subject = (Subjects.below base).parent → ∀ m, Message.ofBytes data ≠ .ok m
  | _ => True

/-- What holds at every moment of a fleet below a base subject, after some actions. -/
structure Exact (base : String) (actions : List Action) (s : State) : Prop where
  bus : s.bus.Sound
  named : s.parent.subjects = .below base
  shards : ∀ i t, s.relays[i]? = some t →
    ShardExact (.below base) s.bus (deliveries i actions) (.cancel ∈ actions) t
  readable : ∀ i, ∀ m ∈ deliveries i actions, Message.ofBytes m.toBytes = .ok m
  applied : ∃ queue, Waits (.below base) s.bus s.parent.stage queue ∧
    Interleaves (s.relays.map (·.forwarded)) (s.parent.applied ++ envelopes queue)
  recorded : Recorded (takings actions) s.parent
  cancelled : s.parent.cancelled = true → .cancel ∈ actions
  ended : ∀ r, s.parent.result? = some r → r = .ok () ∧ .cancel ∈ actions

theorem deliveries_append (i : Nat) (actions more : List Action) :
    deliveries i (actions ++ more) = deliveries i actions ++ deliveries i more :=
  List.filterMap_append

theorem takings_append (actions more : List Action) :
    takings (actions ++ more) = takings actions ++ takings more :=
  List.filterMap_append

theorem mem_deliveries_singleton {i : Nat} {m : Message} {a : Action} :
    m ∈ deliveries i [a] ↔ a = .deliver i m := by
  cases a with
  | deliver j m' =>
      by_cases hj : j = i
      · simp [deliveries, hj, eq_comm]
      · simp [deliveries, hj]
  | _ => simp [deliveries]

theorem deliveries_snoc_of_ne {i : Nat} {a : Action} (ha : ∀ m, a ≠ .deliver i m)
    (actions : List Action) : deliveries i (actions ++ [a]) = deliveries i actions := by
  rw [deliveries_append, List.append_right_eq_self, List.eq_nil_iff_forall_not_mem]
  exact fun m hm => ha m (mem_deliveries_singleton.1 hm)

theorem exact_launch (base : String) (plan : List (UInt32 × Nat × Nat)) :
    Exact base [] (launch base plan) where
  bus := Bus.sound_empty
  named := rfl
  shards := by
    intro i t ht
    obtain ⟨⟨id, inboxSize, outboxSize⟩, -, rfl⟩ := List.mem_map.1 (List.mem_of_getElem? ht)
    exact shardExact_shard base id inboxSize outboxSize _
  readable := nofun
  applied := by
    refine ⟨[], .subscribing, .done fun l hl => ?_⟩
    obtain ⟨t, ht, rfl⟩ := List.mem_map.1 hl
    obtain ⟨⟨id, inboxSize, outboxSize⟩, -, rfl⟩ := List.mem_map.1 ht
    rfl
  recorded := ⟨[], List.Sublist.slnil, rfl, rfl⟩
  cancelled hc := by cases hc
  ended r hr := by cases hr

namespace Exact

variable {base : String} {actions : List Action} {s t : State}

/-- What does not concern the parent's relay itself. -/
theorem of_relays {a : Action} (h : Exact base actions s) (hparent : t.parent = s.parent)
    (hbus : t.bus.Sound)
    (hshards : ∀ i r, t.relays[i]? = some r →
      ShardExact (.below base) t.bus (deliveries i (actions ++ [a])) (.cancel ∈ actions ++ [a]) r)
    (hreadable : ∀ i m, a = .deliver i m → Message.ofBytes m.toBytes = .ok m)
    (happlied : ∃ queue, Waits (.below base) t.bus s.parent.stage queue ∧
      Interleaves (t.relays.map (·.forwarded)) (s.parent.applied ++ envelopes queue)) :
    Exact base (actions ++ [a]) t where
  bus := hbus
  named := hparent ▸ h.named
  shards := hshards
  readable := by
    intro i m hm
    rw [deliveries_append, List.mem_append, mem_deliveries_singleton] at hm
    exact hm.elim (h.readable i m) (hreadable i m)
  applied := hparent ▸ happlied
  recorded := by
    rw [hparent, takings_append]
    exact h.recorded.later _
  cancelled hc := List.mem_append_left _ (h.cancelled (hparent ▸ hc))
  ended r hr := by
    obtain ⟨hok, htold⟩ := h.ended r (hparent ▸ hr)
    exact ⟨hok, List.mem_append_left _ htold⟩

/-- Shards that only others have changed. -/
theorem shards_mono {b : Bus} {a : Action} (h : Exact base actions s) (hext : s.bus.Extends b)
    {i : Nat} {r : ChildRelay.State} (hr : s.relays[i]? = some r) (ha : ∀ m, a ≠ .deliver i m) :
    ShardExact (.below base) b (deliveries i (actions ++ [a])) (.cancel ∈ actions ++ [a]) r := by
  rw [deliveries_snoc_of_ne ha]
  exact (h.shards i r hr).mono hext (List.mem_append_left _)

/-! ### Steps of the parent and of all -/

theorem parent {now : Millis} {a : ParentRelay.Action} {p : ParentRelay.State}
    (h : Exact base actions s)
    (hp : ParentRelay.step .standard now { s.parent with bus := s.bus } a = some p) :
    Exact base (actions ++ [.parent now a]) { s with parent := p, bus := p.bus } := by
  obtain ⟨queue, hwaits, hinterleaves⟩ := h.applied
  have hsubscribed : { s.parent with bus := s.bus }.Subscribed := by
    intro id hid
    rw [h.named]
    exact hwaits.subscribed hid
  have hsteps := ParentRelay.steps_of_step h.bus hsubscribed hp
  obtain ⟨hsubjects, hcancelled⟩ := hsteps.constant
  have hnamed : p.subjects = .below base := hsubjects.trans h.named
  obtain ⟨queue', hwaits', hsame⟩ := Waits.step hsteps h.bus (h.named ▸ hwaits)
    (h.named ▸ (Subjects.below_distinct base).2.1)
  have hext := hsteps.extends_bus h.bus
  constructor
  case bus => exact hext.sound
  case named => exact hnamed
  case shards => exact fun i r hr => h.shards_mono hext hr (fun _ => Action.noConfusion)
  case readable =>
    intro i
    rw [deliveries_snoc_of_ne fun _ => Action.noConfusion]
    exact h.readable i
  case applied =>
    refine ⟨queue', h.named ▸ hwaits', ?_⟩
    rw [hsame]
    exact hinterleaves
  case recorded =>
    rw [takings_append]
    exact Recorded.step hsteps h.recorded
  case cancelled => exact fun hc => List.mem_append_left _ (h.cancelled (hcancelled ▸ hc))
  case ended =>
    intro r hr
    obtain ⟨hok, hc⟩ := hsteps.result_eq hr
    exact ⟨hok, List.mem_append_left _ (h.cancelled hc)⟩

theorem cancel (h : Exact base actions s) (hs : Steps s .cancel t) :
    Exact base (actions ++ [.cancel]) t := by
  cases hs
  have hmem : Action.cancel ∈ actions ++ [.cancel] := by simp
  obtain ⟨queue, hwaits, hinterleaves⟩ := h.applied
  let cancelled (r : ChildRelay.State) : ChildRelay.State := { r with cancelled := true }
  have hrelays : s.shards.map cancelled ++ s.waiting.map cancelled = s.relays.map cancelled :=
    List.map_append.symm
  constructor
  case bus => exact h.bus
  case named => exact h.named
  case shards =>
    intro i r hr
    change (s.shards.map cancelled ++ s.waiting.map cancelled)[i]? = some r at hr
    rw [hrelays, List.getElem?_map, Option.map_eq_some_iff] at hr
    obtain ⟨old, hold, rfl⟩ := hr
    have hexact := h.shards_mono (a := .cancel) (.refl h.bus) hold (fun _ => Action.noConfusion)
    exact ⟨hexact.named, hexact.subscribed, hexact.forwarded, hexact.inbox, fun _ => hmem,
      hexact.ended⟩
  case readable =>
    intro i
    rw [deliveries_snoc_of_ne fun _ => Action.noConfusion]
    exact h.readable i
  case applied =>
    refine ⟨queue, hwaits, ?_⟩
    change Interleaves ((s.shards.map cancelled ++ s.waiting.map cancelled).map (·.forwarded)) _
    rw [hrelays, List.map_map]
    exact hinterleaves
  case recorded =>
    rw [takings_append]
    exact h.recorded.later _
  case cancelled => exact fun _ => hmem
  case ended => exact fun r hr => ⟨(h.ended r hr).1, hmem⟩

/-! ### Steps of the shards and of others -/

theorem start (h : Exact base actions s) (hs : Steps s .start t) :
    Exact base (actions ++ [.start]) t := by
  cases hs with
  | start first rest hwaiting =>
      have hrelays : s.shards ++ [first] ++ rest = s.relays := by
        rw [State.relays, hwaiting, List.append_assoc]
        rfl
      refine h.of_relays rfl h.bus ?_ (fun _ _ => Action.noConfusion) ?_
      · intro i r hr
        exact h.shards_mono (.refl h.bus) (hrelays ▸ hr) (fun _ => Action.noConfusion)
      · obtain ⟨queue, hwaits, hinterleaves⟩ := h.applied
        refine ⟨queue, hwaits, ?_⟩
        change Interleaves ((s.shards ++ [first] ++ rest).map (·.forwarded)) _
        rw [hrelays]
        exact hinterleaves

theorem outside {subject : String} {data : Bytes} (h : Exact base actions s)
    (ha : Orderly base s (.outside subject data)) (hs : Steps s (.outside subject data) t) :
    Exact base (actions ++ [.outside subject data]) t := by
  cases hs
  have hext := h.bus.spread subject data
  refine h.of_relays rfl hext.sound ?_ (fun _ _ => Action.noConfusion) ?_
  · intro i r hr
    exact h.shards_mono hext hr (fun _ => Action.noConfusion)
  · obtain ⟨queue, hwaits, hinterleaves⟩ := h.applied
    by_cases hsubject : subject = (Subjects.below base).parent
    · have hmalformed : (Message.ofBytes data).toOption = none := by
        cases hdecoded : Message.ofBytes data with
        | ok m => exact absurd hdecoded (ha hsubject m)
        | error e => rfl
      -- a parent that has not subscribed yet does not hear of it
      by_cases hsubscribing : s.parent.stage = .subscribing
      · rw [hsubscribing] at hwaits
        cases hwaits
        exact ⟨[], hsubscribing ▸ .subscribing, hinterleaves⟩
      · refine ⟨queue ++ [data], ?_, ?_⟩
        · apply hwaits.mono hext (fun he => absurd he hsubscribing)
          intro id hl
          rw [hsubject]
          exact hl.spread_self h.bus data
        · rw [envelopes_snoc, hmalformed, Option.toList_none, List.append_nil]
          exact hinterleaves
    · refine ⟨queue, ?_, hinterleaves⟩
      exact hwaits.mono hext (fun _ => rfl) fun id hl => hl.spread_of_ne hsubject data

section Shard

variable {i : Nat} {r r' : ChildRelay.State} {a : Action}

theorem relays_set (hr : s.shards[i]? = some r) (r' : ChildRelay.State) :
    s.relays[i]? = some r ∧ (s.setShard i r').relays = s.relays.set i r' := by
  obtain ⟨hi, -⟩ := List.getElem?_eq_some_iff.1 hr
  exact ⟨(List.getElem?_append_left hi).trans hr, (List.set_append_left _ _ hi).symm⟩

/-- One shard changed, and what it forwarded is told to the parent. -/
theorem of_shard (h : Exact base actions s) (hr : s.shards[i]? = some r)
    (hext : s.bus.Extends r'.bus) (ha : ∀ j m, a = .deliver j m → j = i)
    (hreadable : ∀ m, a = .deliver i m → Message.ofBytes m.toBytes = .ok m)
    (hexact : ShardExact (.below base) r'.bus (deliveries i (actions ++ [a]))
      (.cancel ∈ actions ++ [a]) r')
    (happlied : ∃ queue, Waits (.below base) r'.bus s.parent.stage queue ∧
      Interleaves ((s.relays.map (·.forwarded)).set i r'.forwarded)
        (s.parent.applied ++ envelopes queue)) :
    Exact base (actions ++ [a]) (s.setShard i r') := by
  obtain ⟨hi, hset⟩ := relays_set hr r'
  refine h.of_relays rfl hext.sound ?_ ?_ ?_
  · intro j r'' hj
    rw [hset, List.getElem?_set] at hj
    split at hj
    case isTrue hij =>
      subst hij
      split at hj
      case isTrue =>
        cases hj
        exact hexact
      case isFalse => cases hj
    case isFalse hij =>
      exact h.shards_mono hext hj fun m hm => hij (ha j m hm).symm
  · intro j m hm
    obtain rfl := ha j m hm
    exact hreadable m hm
  · rw [hset, List.map_set]
    exact happlied

theorem set_forwarded (hr : s.relays[i]? = some r) (hsame : r'.forwarded = r.forwarded) :
    (s.relays.map (·.forwarded)).set i r'.forwarded = s.relays.map (·.forwarded) := by
  obtain ⟨hi, hget⟩ := List.getElem?_eq_some_iff.1 hr
  apply List.ext_getElem?
  intro j
  rw [List.getElem?_set]
  split
  case isTrue hij =>
    subst hij
    simp [hi, hget, hsame]
  case isFalse => rfl

theorem shard {a : ChildRelay.Action} (h : Exact base actions s)
    (ha : Orderly base s (.shard i a)) (hr : s.shards[i]? = some r)
    (hr' : ChildRelay.step { r with bus := s.bus } a = some r') :
    Exact base (actions ++ [.shard i a]) (s.setShard i r') := by
  have hold := h.shards i r (relays_set hr r').1
  have hsubscribed : ChildRelay.State.Subscribed { r with bus := s.bus } := by
    intro id hid
    exact hold.named ▸ hold.subscribed id hid
  have hsteps := ChildRelay.steps_of_step h.bus hsubscribed hr'
  have hext := hsteps.extends_bus h.bus
  obtain ⟨queue, hwaits, hinterleaves⟩ := h.applied
  refine h.of_shard hr hext (fun _ _ => Action.noConfusion) (fun _ => Action.noConfusion) ?_ ?_
  · rw [deliveries_snoc_of_ne fun _ => Action.noConfusion]
    exact (hold.step h.bus hsteps).mono (.refl hext.sound) (List.mem_append_left _)
  · by_cases hforward : a = .forward
    · subst hforward
      cases hsteps with
      | forward id m inbox hstage hreceive =>
          have hcame : deliveries i actions = r.forwarded ++ r.inbox.items := by
            apply hold.inbox
            change r.stage = .serving id at hstage
            rw [ChildRelay.State.result?, hstage]
          have hread : Message.ofBytes m.toBytes = .ok m := by
            apply h.readable i
            rw [hcame, (Channel.receive?_eq_some_iff.1 hreceive).1]
            simp
          refine ⟨queue ++ [m.toBytes], ?_, ?_⟩
          · apply hwaits.mono hext (fun he => absurd he ha)
            intro id' hl
            rw [hold.named]
            exact hl.publish_self h.bus m.toBytes
          · have hforwarded : (s.relays.map (·.forwarded))[i]? = some r.forwarded := by
              rw [List.getElem?_map, (relays_set hr r).1]
              rfl
            rw [envelopes_snoc, hread, ← List.append_assoc]
            exact hinterleaves.snoc hforwarded m
    · rw [set_forwarded (relays_set hr r').1 (hsteps.kept hforward).1]
      refine ⟨queue, ?_, hinterleaves⟩
      apply hwaits.mono hext (fun _ => rfl)
      intro id hl
      have hnames := Subjects.below_distinct base
      rw [← hold.named] at hnames hl ⊢
      exact hsteps.quiet hforward h.bus hsubscribed hnames.1 hnames.2.1 hl

theorem deliver {m : Message} (h : Exact base actions s) (ha : Orderly base s (.deliver i m))
    (hr : s.shards[i]? = some r) :
    Exact base (actions ++ [.deliver i m]) (s.setShard i
      { r with bus := s.bus, inbox := { r.inbox with items := r.inbox.items ++ [m] } }) := by
  have hold := h.shards i r (relays_set hr r).1
  have hcame : deliveries i (actions ++ [.deliver i m]) = deliveries i actions ++ [m] := by
    rw [deliveries_append]
    simp [deliveries]
  refine h.of_shard hr (.refl h.bus) ?_ ?_ ?_ ?_
  · intro j m' he
    cases he
    rfl
  · intro m' he
    cases he
    obtain ⟨⟨bytes, hbytes⟩, hintegers⟩ := ha
    obtain ⟨hordered, hdepth⟩ := Message.payload_shaped hbytes
    exact Message.ofBytes_toBytes hintegers hordered hdepth
  · rw [hcame]
    constructor
    case named => exact hold.named
    case subscribed => exact hold.subscribed
    case forwarded => exact hold.forwarded.trans (List.prefix_append ..)
    case inbox =>
      intro hopen
      rw [hold.inbox hopen, List.append_assoc]
    case cancelled => exact fun hc => List.mem_append_left _ (hold.cancelled hc)
    case ended =>
      intro result hresult
      exact ⟨(hold.ended result hresult).1, List.mem_append_left _ (hold.ended result hresult).2⟩
  · rw [set_forwarded (relays_set hr r).1 rfl]
    exact h.applied

theorem absorb (h : Exact base actions s) (hr : s.shards[i]? = some r)
    (outbox : Channel Command) :
    Exact base (actions ++ [.absorb i]) (s.setShard i { r with bus := s.bus, outbox }) := by
  have hold := h.shards_mono (a := .absorb i) (.refl h.bus) (relays_set hr r).1
    (fun _ => Action.noConfusion)
  refine h.of_shard hr (.refl h.bus) (fun _ _ => Action.noConfusion)
    (fun _ => Action.noConfusion) ?_ ?_
  · exact ⟨hold.named, hold.subscribed, hold.forwarded, hold.inbox, hold.cancelled, hold.ended⟩
  · rw [set_forwarded (relays_set hr r).1 rfl]
    exact h.applied

end Shard

theorem step {a : Action} (h : Exact base actions s) (ha : Orderly base s a)
    (hs : Steps s a t) : Exact base (actions ++ [a]) t := by
  cases hs with
  | start first rest hwaiting => exact h.start (.start first rest hwaiting)
  | parent now a p hp => exact h.parent hp
  | shard i a r r' hr hr' => exact h.shard ha hr hr'
  | deliver i m r hr => exact h.deliver ha hr
  | absorb i r outbox hr => exact h.absorb hr outbox
  | outside subject data => exact h.outside ha (.outside subject data)
  | cancel => exact h.cancel .cancel

end Exact

/-- A fleet after some actions. -/
def Runs (base : String) (plan : List (UInt32 × Nat × Nat)) : List Action → State → Prop :=
  Reaches step (Orderly base) (launch base plan)

section Runs

variable {base : String} {plan : List (UInt32 × Nat × Nat)} {actions : List Action} {s t : State}

theorem Runs.exact (hrun : Runs base plan actions s) : Exact base actions s := by
  induction hrun with
  | start => exact exact_launch base plan
  | step _ ha ht ih => exact ih.step ha (steps_of_step ht)

theorem Steps.length_relays {a : Action} (h : Steps s a t) :
    t.relays.length = s.relays.length := by
  cases h with
  | start first rest hwaiting => simp [State.relays, hwaiting]
  | _ => simp [State.relays, State.setShard]

theorem Runs.length_relays (hrun : Runs base plan actions s) : s.relays.length = plan.length := by
  induction hrun with
  | start => simp [launch, make, State.relays]
  | step _ _ ht ih => exact (steps_of_step ht).length_relays.trans ih

end Runs

/-- At every moment of a fleet that behaves orderly, the parent has applied first parts of what the
meshes of its shards delivered, in some order between the shards and unchanged. What a shard has not
forwarded waits in its inbox, what was forwarded and not applied waits for the parent, and nobody
returns unless all are told to stop. The directory is what applying these envelopes one by one makes
of an empty one. -/
theorem applied_exactly {base : String} {plan : List (UInt32 × Nat × Nat)} {actions : List Action}
    {s : State} (hrun : Runs base plan actions s) :
    (∃ firsts : List (List Message), firsts.length = plan.length ∧
      (∀ i first, firsts[i]? = some first → first <+: deliveries i actions) ∧
      Interleaves firsts s.parent.applied) ∧
    (∀ i t, s.relays[i]? = some t → t.forwarded <+: deliveries i actions ∧
      (t.result? = none → deliveries i actions = t.forwarded ++ t.inbox.items)) ∧
    (∀ id, s.parent.stage.subscription? = some id →
      ∃ queue, s.bus.Listens id (Subjects.below base).parent queue ∧
        Interleaves (s.relays.map (·.forwarded)) (s.parent.applied ++ envelopes queue)) ∧
    (∃ moments, moments.Sublist (takings actions) ∧ moments.length = s.parent.applied.length ∧
      s.parent.directory = applyAll (s.parent.applied.zip moments)) ∧
    (∀ r, (s.parent.result? = some r ∨ ∃ t ∈ s.relays, t.result? = some r) →
      r = .ok () ∧ .cancel ∈ actions) := by
  have hexact := hrun.exact
  obtain ⟨queue, hwaits, hinterleaves⟩ := hexact.applied
  refine ⟨?_, ?_, ?_, hexact.recorded, ?_⟩
  · obtain ⟨firsts, hfirsts, happlied⟩ := hinterleaves.of_append
    refine ⟨firsts, ?_, ?_, happlied⟩
    · rw [hfirsts.length_eq, List.length_map, hrun.length_relays]
    · intro i first hfirst
      obtain ⟨hi, rfl⟩ := List.getElem?_eq_some_iff.1 hfirst
      have hi' : i < s.relays.length := by
        simpa only [hfirsts.length_eq, List.length_map] using hi
      have hforwarded := hfirsts.get hi (by simpa using hi')
      have hshard := hexact.shards i _ (List.getElem?_eq_getElem hi')
      exact (by simpa using hforwarded : firsts[i] <+: s.relays[i].forwarded).trans
        hshard.forwarded
  · intro i t ht
    exact ⟨(hexact.shards i t ht).forwarded, (hexact.shards i t ht).inbox⟩
  · intro id hid
    refine ⟨queue, ?_, hinterleaves⟩
    generalize s.parent.stage = stage at hid hwaits
    cases hwaits with
    | subscribing => cases hid
    | subscribingReady hl =>
        cases hid
        exact hl
    | serving hl =>
        cases hid
        exact hl
    | ended => cases hid
  · rintro r (hr | ⟨t, ht, hr⟩)
    · exact hexact.ended r hr
    · obtain ⟨i, hi⟩ := List.mem_iff_getElem?.1 ht
      exact (hexact.shards i t hi).ended r hr

/-- An envelope with a name and no content. -/
def note (context : String) : Message :=
  { context, payload := .null }

/-- Admits only what is orderly below a base subject, with notes as envelopes. -/
def admits (base : String) (s : State) : Action → Bool
  | .shard _ .forward => s.parent.stage.subscription?.isSome
  | .deliver _ m => m = note m.context && (Message.ofBytes m.toBytes).toOption = some m
  | .outside subject data =>
    subject ≠ (Subjects.below base).parent || (Message.ofBytes data).toOption.isNone
  | _ => true

theorem orderly_of_admits {base : String} (s : State) (a : Action) (h : admits base s a = true) :
    Orderly base s a := by
  cases a with
  | shard i a =>
      cases a with
      | forward =>
          intro hsubscribing
          change s.parent.stage.subscription?.isSome = true at h
          rw [hsubscribing] at h
          cases h
      | _ => trivial
  | deliver i m =>
      simp only [admits, Bool.and_eq_true, decide_eq_true_eq] at h
      refine ⟨⟨m.toBytes, eq_ok_of_toOption h.2⟩, ?_⟩
      rw [h.1]
      trivial
  | outside subject data =>
      intro hsubject m hm
      simp [admits, hsubject, hm, Except.toOption] at h
  | _ => trivial

/-- Two shards forward three notes; the bus also carries noise and somebody's note to the
handshakes. -/
def exchange : List Action :=
  [.start, .start, .shard 0 .subscribe, .shard 0 .announce, .parent 0 .subscribe,
    .parent 0 .subscribeReady, .shard 1 .subscribe, .shard 1 .announce, .deliver 0 (note "a"),
    .deliver 0 (note "b"), .deliver 1 (note "c"), .shard 0 .forward, .shard 1 .forward,
    .outside "s.parent" [0], .outside "s.ready" (note "d").toBytes, .shard 0 .forward,
    .parent 1 .take, .parent 2 .take, .parent 3 .greet, .parent 3 .take, .parent 4 .take]

theorem exchange_applied :
    ∃ s, Runs "s" [(1, 4, 4), (2, 4, 4)] exchange s ∧
      s.parent.applied = [note "a", note "c", note "b"] ∧
      ∃ firsts : List (List Message), firsts.length = 2 ∧
        (∀ i first, firsts[i]? = some first → first <+: deliveries i exchange) ∧
        Interleaves firsts [note "a", note "c", note "b"] := by
  have happlied : (replay step (admits "s") (launch "s" [(1, 4, 4), (2, 4, 4)]) exchange).map
      (·.parent.applied) = some [note "a", note "c", note "b"] := by decide +kernel
  obtain ⟨s, hs, happlied⟩ := Option.map_eq_some_iff.1 happlied
  have hrun : Runs "s" [(1, 4, 4), (2, 4, 4)] exchange s :=
    reaches_of_replay (admits "s") orderly_of_admits hs
  have hfirsts := (applied_exactly hrun).1
  rw [happlied] at hfirsts
  exact ⟨s, hrun, happlied, hfirsts⟩

end Fleet

end GossipDirectory
