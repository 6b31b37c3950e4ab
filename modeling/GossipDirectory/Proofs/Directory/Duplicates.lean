import GossipDirectory.Proofs.Collection.Interleaving
import GossipDirectory.Proofs.Directory.Slots
import Mathlib.Data.List.Induction

/-!
# Duplicate deliveries

Several shards deliver the same envelopes, each in the same order. However the deliveries
interleave, every key ends with the values and the time it would have had after one delivery of each
envelope.

## Implementation notes

At one instant the last word counts: a value is there if the last envelope about it added it, or if
there was none and it was there before; the time is set by the last addition to the key. A key that
is never added to only loses values, and the order in which it loses them does not matter.
-/

namespace GossipDirectory

/-! ## What an envelope says about a key -/

namespace Registry

/-- The mutation that an envelope brings; nothing if it is passed over or refused. -/
def mutation? (registry : Registry) (m : Message) : Option Mutation :=
  match registry.decode m with
  | some (.ok mutation) => some mutation
  | _ => none

/-- The entry that an envelope adds to a key. -/
def added? (registry : Registry) (key : String) (m : Message) : Option Entry :=
  match registry.mutation? m with
  | some (.add e) => if e.key = key then some e else none
  | _ => none

/-- The value that an envelope removes from a key. -/
def removed? (registry : Registry) (key : String) (m : Message) : Option String :=
  match registry.mutation? m with
  | some (.remove e) => if e.key = key then some e.value else none
  | _ => none

/-- Whether an envelope adds a value to a key or removes it, if it does one of these. -/
def verdict? (registry : Registry) (key value : String) (m : Message) : Option Bool :=
  match registry.added? key m, registry.removed? key m with
  | some e, _ => if e.value = value then some true else none
  | none, some removed => if removed = value then some false else none
  | none, none => none

variable {registry : Registry} {m : Message} {key value : String} {e : Entry}

theorem added?_eq_some_iff :
    registry.added? key m = some e ↔ registry.mutation? m = some (.add e) ∧ e.key = key := by
  constructor
  · intro h
    unfold added? at h
    split at h
    case h_1 e' hm =>
      split at h
      case isTrue hk =>
        cases h
        exact ⟨hm, hk⟩
      case isFalse => cases h
    case h_2 => cases h
  · rintro ⟨hm, hk⟩
    simp [added?, hm, hk]

theorem removed?_eq_some_iff :
    registry.removed? key m = some value ↔
      ∃ e, registry.mutation? m = some (.remove e) ∧ e.key = key ∧ e.value = value := by
  constructor
  · intro h
    unfold removed? at h
    split at h
    case h_1 e' hm =>
      split at h
      case isTrue hk => exact ⟨e', hm, hk, Option.some.inj h⟩
      case isFalse => cases h
    case h_2 => cases h
  · rintro ⟨e, hm, hk, hv⟩
    simp [removed?, hm, hk, hv]

theorem verdict?_of_added (h : registry.added? key m = some e) :
    registry.verdict? key value m = if e.value = value then some true else none := by
  simp only [verdict?, h]

theorem verdict?_of_removed {removed : String} (ha : registry.added? key m = none)
    (hr : registry.removed? key m = some removed) :
    registry.verdict? key value m = if removed = value then some false else none := by
  simp only [verdict?, ha, hr]

theorem verdict?_of_none (ha : registry.added? key m = none)
    (hr : registry.removed? key m = none) : registry.verdict? key value m = none := by
  simp only [verdict?, ha, hr]

end Registry

namespace Directory

variable {registry : Registry} {d : Directory} {m : Message} {now : Millis} {key : String}

/-! ## One delivery -/

theorem minimumLife_le_timeToLive (mode : String) : minimumLife ≤ timeToLive mode := by
  unfold timeToLive minimumLife
  split
  · decide
  · split <;> decide

theorem deliver_of_none (h : registry.mutation? m = none) (d : Directory) (now : Millis) :
    d.deliver registry m now = d := by
  unfold Registry.mutation? at h
  unfold deliver apply
  cases hm : registry.decode m with
  | none => rfl
  | some decoded =>
      cases decoded with
      | error e => rfl
      | ok mutation =>
          rw [hm] at h
          cases h

theorem deliver_of_some {mutation : Mutation} {d' : Directory}
    (h : registry.mutation? m = some mutation) (hd : d.mutate mutation now = .ok d') :
    d.deliver registry m now = d' := by
  unfold Registry.mutation? at h
  unfold deliver apply
  split at h
  case h_1 mutation' hm =>
    cases h
    rw [hm]
    simp only [hd]
  case h_2 => cases h

/-- An addition by envelope is never refused: the life time of every mode is long enough. -/
theorem add_eq_ok_deliver {e : Entry} (h : registry.mutation? m = some (.add e)) (d : Directory)
    (now : Millis) :
    d.add e.key e.value (timeToLive e.mode) now = .ok (d.deliver registry m now) := by
  obtain ⟨d', hd⟩ :=
    (add_succeeds_iff d e.key e.value (timeToLive e.mode) now).2 (minimumLife_le_timeToLive e.mode)
  rw [deliver_of_some h hd]
  exact hd

theorem deliver_of_remove {e : Entry} (h : registry.mutation? m = some (.remove e))
    (d : Directory) (now : Millis) : d.deliver registry m now = d.remove e.key e.value :=
  deliver_of_some h rfl

theorem slot?_deliver_of_none (ha : registry.added? key m = none)
    (hr : registry.removed? key m = none) (d : Directory) (now : Millis) :
    (d.deliver registry m now).slot? key = d.slot? key := by
  cases hm : registry.mutation? m with
  | none => rw [deliver_of_none hm]
  | some mutation =>
      cases mutation with
      | add e =>
          have hk : key ≠ e.key := fun hk => by
            rw [Registry.added?_eq_some_iff.2 ⟨hm, hk.symm⟩] at ha
            cases ha
          exact slot?_add_of_ne (add_eq_ok_deliver hm d now) hk
      | remove e =>
          have hk : key ≠ e.key := fun hk => by
            rw [Registry.removed?_eq_some_iff.2 ⟨e, hm, hk.symm, rfl⟩] at hr
            cases hr
          rw [deliver_of_remove hm]
          exact slot?_remove_of_ne hk d e.value

theorem slot?_deliver_of_added {e : Entry} (ha : registry.added? key m = some e) (d : Directory)
    (now : Millis) :
    (d.deliver registry m now).slot? key =
      some ⟨including e.value (d.living key now), now + timeToLive e.mode⟩ := by
  obtain ⟨hm, rfl⟩ := Registry.added?_eq_some_iff.1 ha
  exact slot?_add_self (add_eq_ok_deliver hm d now)

theorem slot?_deliver_of_removed {value : String} (hr : registry.removed? key m = some value)
    (d : Directory) (now : Millis) :
    (d.deliver registry m now).slot? key = (d.slot? key).bind (Slot.keeping (· ≠ value)) := by
  obtain ⟨e, hm, rfl, rfl⟩ := Registry.removed?_eq_some_iff.1 hr
  rw [deliver_of_remove hm]
  exact slot?_remove_self d e.key e.value

theorem lt_add_timeToLive (now : Millis) (mode : String) : now < now + timeToLive mode := by
  have h : 0 < timeToLive mode := Nat.lt_of_lt_of_le (by decide) (minimumLife_le_timeToLive mode)
  exact Nat.lt_add_of_pos_right h

/-- A delivery changes the living values of a key only where it says something about them. -/
theorem mem_living_deliver {value : String} (m : Message) (d : Directory) :
    value ∈ (d.deliver registry m now).living key now ↔
      (registry.verdict? key value m).getD (value ∈ d.living key now) = true := by
  cases ha : registry.added? key m with
  | some e =>
      obtain ⟨hm, rfl⟩ := Registry.added?_eq_some_iff.1 ha
      rw [living_add_self (add_eq_ok_deliver hm d now), if_pos (lt_add_timeToLive now e.mode),
        mem_including, Registry.verdict?_of_added ha]
      by_cases hv : e.value = value
      · simp [hv]
      · simp [hv, Ne.symm hv]
  | none =>
      cases hr : registry.removed? key m with
      | some removed =>
          obtain ⟨e, hm, rfl, rfl⟩ := Registry.removed?_eq_some_iff.1 hr
          rw [deliver_of_remove hm, living_remove_self, Registry.verdict?_of_removed ha hr]
          by_cases hv : e.value = value
          · simp [hv]
          · simp [hv, Ne.symm hv]
      | none =>
          rw [living_congr (slot?_deliver_of_none ha hr d now), Registry.verdict?_of_none ha hr]
          simp

/-! ## Deliveries at one instant -/

/-- The directory after envelopes were delivered at one instant. -/
def deliverAll (registry : Registry) (now : Millis) (d : Directory) (trace : List Message) :
    Directory :=
  trace.foldl (fun d m => d.deliver registry m now) d

theorem deliverAll_snoc (registry : Registry) (now : Millis) (d : Directory)
    (trace : List Message) (m : Message) :
    deliverAll registry now d (trace ++ [m]) =
      (deliverAll registry now d trace).deliver registry m now := by
  rw [deliverAll, List.foldl_append]
  rfl

/-- The last envelope about a value decides whether it lives. -/
theorem mem_living_deliverAll {value : String} (trace : List Message) :
    value ∈ (deliverAll registry now d trace).living key now ↔
      (lastSome (registry.verdict? key value) trace).getD (value ∈ d.living key now) = true := by
  induction trace using List.reverseRecOn with
  | nil => simp [deliverAll]
  | append_singleton trace m ih =>
      rw [deliverAll_snoc, mem_living_deliver, lastSome_snoc]
      cases registry.verdict? key value m with
      | some verdict => rfl
      | none => simpa using ih

/-- The last addition to a key sets its time. -/
theorem slot?_deliverAll_of_added {trace : List Message} {e : Entry}
    (h : lastSome (registry.added? key) trace = some e) {slot : Slot}
    (hslot : (deliverAll registry now d trace).slot? key = some slot) :
    slot.expires = now + timeToLive e.mode ∧ slot.values ≠ [] := by
  induction trace using List.reverseRecOn generalizing slot with
  | nil => cases h
  | append_singleton trace m ih =>
      rw [deliverAll_snoc] at hslot
      rw [lastSome_snoc] at h
      cases ha : registry.added? key m with
      | some e' =>
          rw [ha] at h
          cases h
          rw [slot?_deliver_of_added ha] at hslot
          cases hslot
          refine ⟨rfl, ?_⟩
          exact List.ne_nil_of_mem (mem_including.2 (Or.inr rfl))
      | none =>
          rw [ha] at h
          cases hr : registry.removed? key m with
          | none =>
              rw [slot?_deliver_of_none ha hr] at hslot
              exact ih h hslot
          | some removed =>
              rw [slot?_deliver_of_removed hr, Option.bind_eq_some_iff] at hslot
              obtain ⟨old, hold, hkept⟩ := hslot
              unfold Slot.keeping at hkept
              split at hkept
              case isTrue => cases hkept
              case isFalse he =>
                cases hkept
                exact ⟨(ih h hold).1, fun hnil => he (List.isEmpty_iff.2 hnil)⟩

/-- A key that is never added to loses the values that envelopes remove, in whatever order. -/
theorem slot?_deliverAll_of_not_added {trace : List Message}
    (h : lastSome (registry.added? key) trace = none) :
    (deliverAll registry now d trace).slot? key =
      if (lastSome (registry.removed? key) trace).isSome then
        (d.slot? key).bind
          (Slot.keeping fun v => (lastSome (registry.verdict? key v) trace).isNone)
      else d.slot? key := by
  induction trace using List.reverseRecOn with
  | nil => rfl
  | append_singleton trace m ih =>
      rw [lastSome_snoc, Option.or_eq_none_iff] at h
      obtain ⟨ha, hbefore⟩ := h
      rw [deliverAll_snoc, lastSome_snoc]
      simp only [lastSome_snoc]
      cases hr : registry.removed? key m with
      | none =>
          simp only [Registry.verdict?_of_none ha hr, Option.none_or]
          rw [slot?_deliver_of_none ha hr]
          exact ih hbefore
      | some removed =>
          rw [slot?_deliver_of_removed hr, ih hbefore, Option.some_or, Option.isSome_some,
            if_pos rfl]
          have hverdict : ∀ v,
              ((registry.verdict? key v m).or (lastSome (registry.verdict? key v) trace)).isNone =
                ((lastSome (registry.verdict? key v) trace).isNone && decide (v ≠ removed)) := by
            intro v
            rw [Registry.verdict?_of_removed ha hr]
            by_cases hv : removed = v
            · simp [hv]
            · simp [hv, Ne.symm hv]
          simp only [hverdict]
          cases hremoved : lastSome (registry.removed? key) trace with
          | some _ =>
              rw [Option.isSome_some, if_pos rfl, Option.bind_assoc]
              simp only [Slot.keeping_keeping]
          | none =>
              have hsilent : ∀ v, lastSome (registry.verdict? key v) trace = none := fun v => by
                rw [lastSome_eq_none_iff] at hbefore hremoved ⊢
                intro m hm
                exact Registry.verdict?_of_none (hbefore m hm) (hremoved m hm)
              simp [hsilent]

/-! ## Interleaved copies -/

/-- Both keys are absent, or both hold the same values until the same time. -/
inductive SameSlot : Option Slot → Option Slot → Prop
  | absent : SameSlot none none
  | present {s s' : Slot} : s.expires = s'.expires → (∀ v, v ∈ s.values ↔ v ∈ s'.values) →
    SameSlot (some s) (some s')

theorem SameSlot.refl (s : Option Slot) : SameSlot s s := by
  cases s with
  | none => exact .absent
  | some s => exact .present rfl fun v => Iff.rfl

/-- Slots that lapse later, at one time, and are dropped when empty are told apart by their living
values only. -/
theorem sameSlot_of_living {d' : Directory} {t : Millis} (ht : now < t)
    (hd : ∀ s, d.slot? key = some s → s.expires = t ∧ s.values ≠ [])
    (hd' : ∀ s, d'.slot? key = some s → s.expires = t ∧ s.values ≠ [])
    (hmem : ∀ v, v ∈ d.living key now ↔ v ∈ d'.living key now) :
    SameSlot (d.slot? key) (d'.slot? key) := by
  rw [living_eq, living_eq] at hmem
  cases hs : d.slot? key with
  | none =>
      cases hs' : d'.slot? key with
      | none => exact .absent
      | some s' =>
          obtain ⟨rfl, hne⟩ := hd' s' hs'
          obtain ⟨v, hv⟩ := List.exists_mem_of_ne_nil _ hne
          simp [hs, hs', Slot.current, ht] at hmem
          exact absurd hv (hmem v)
  | some s =>
      obtain ⟨hlapse, hne⟩ := hd s hs
      cases hs' : d'.slot? key with
      | none =>
          obtain ⟨v, hv⟩ := List.exists_mem_of_ne_nil _ hne
          simp [hs, hs', Slot.current, hlapse, ht] at hmem
          exact absurd hv (hmem v)
      | some s' =>
          obtain ⟨hlapse', -⟩ := hd' s' hs'
          refine .present (hlapse.trans hlapse'.symm) ?_
          simpa [hs, hs', Slot.current, hlapse, hlapse', ht] using hmem

/-- Any number of copies of some envelopes, however they interleave, leave under every key what one
copy leaves. -/
theorem deliverAll_interleaved (registry : Registry) (now : Millis) (d : Directory) {n : Nat}
    (hn : 1 ≤ n) {messages trace : List Message}
    (h : Interleaves (List.replicate n messages) trace) (key : String) :
    SameSlot ((deliverAll registry now d trace).slot? key)
      ((deliverAll registry now d messages).slot? key) := by
  have hadded := h.lastSome_replicate hn (registry.added? key)
  have hremoved := h.lastSome_replicate hn (registry.removed? key)
  have hverdict : ∀ v, lastSome (registry.verdict? key v) trace =
      lastSome (registry.verdict? key v) messages :=
    fun v => h.lastSome_replicate hn (registry.verdict? key v)
  cases hlast : lastSome (registry.added? key) messages with
  | none =>
      rw [slot?_deliverAll_of_not_added (hadded.trans hlast), slot?_deliverAll_of_not_added hlast,
        hremoved]
      simp only [hverdict]
      exact SameSlot.refl _
  | some e =>
      apply sameSlot_of_living (lt_add_timeToLive now e.mode)
      · intro s
        exact slot?_deliverAll_of_added (hadded.trans hlast)
      · intro s
        exact slot?_deliverAll_of_added hlast
      · intro v
        rw [mem_living_deliverAll, mem_living_deliverAll, hverdict]

/-- Adds a value, removes it and adds it again. -/
def contended : List Message :=
  [(Mutation.add ⟨"k", "a", "short"⟩).toMessage, (Mutation.remove ⟨"k", "a", "short"⟩).toMessage,
    (Mutation.add ⟨"k", "a", "long"⟩).toMessage]

/-- Two copies of them, of which now one and now the other is ahead. -/
def contendedTwice : List Message :=
  [contended[0], contended[0], contended[1], contended[2], contended[1], contended[2]]

theorem contended_interleaved :
    (1 ≤ 2 ∧ Interleaves (List.replicate 2 contended) contendedTwice) ∧
      SameSlot
        ((deliverAll Registry.standard 5 ⟨[("k", ⟨["b"], 10⟩)], 1⟩ contendedTwice).slot? "k")
        (some ⟨["b", "a"], 3600005⟩) := by
  have h : Interleaves (List.replicate 2 contended) contendedTwice := by
    apply Interleaves.take [] _ _ [_]
    apply Interleaves.take [_] _ _ []
    apply Interleaves.take [] _ _ [_]
    apply Interleaves.take [] _ _ [_]
    apply Interleaves.take [_] _ _ []
    apply Interleaves.take [_] _ _ []
    apply Interleaves.done
    simp
  have hn : 1 ≤ 2 := by decide
  have honce : (deliverAll Registry.standard 5 ⟨[("k", ⟨["b"], 10⟩)], 1⟩ contended).slot? "k" =
      some ⟨["b", "a"], 3600005⟩ := by decide
  refine ⟨⟨hn, h⟩, ?_⟩
  rw [← honce]
  exact deliverAll_interleaved Registry.standard 5 _ hn h "k"

end Directory

end GossipDirectory
