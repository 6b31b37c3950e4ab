import GossipDirectory.Proofs.Directory.Listing
import Mathlib.Data.Set.Card

/-!
# The accounts of a directory

A directory tells how many keys it holds and how many additions it took. Whatever calls it has
seen, it holds no slot without values and no value of a slot twice, and its additions are those that
succeeded. Lapsed slots are still counted as keys; right after an eviction there are none, and the
count is the number of keys that list something.

## Implementation notes

The times of a run do not matter here: a slot that is kept too long is still a slot with values, and
an eviction looks at the time it is given only.
-/

namespace GossipDirectory

namespace Keyed

variable {κ α : Type} [DecidableEq κ]

/-- Distinct keys are as many as there are entries. -/
theorem ncard_keys {m : List (κ × α)} (h : (keys m).Nodup) :
    {key | get? key m ≠ none}.Finite ∧ {key | get? key m ≠ none}.ncard = m.length := by
  have hkeys : {key | get? key m ≠ none} = ((keys m).toFinset : Set κ) := by
    ext key
    rw [List.coe_toFinset, Set.mem_ofPred_eq, Set.mem_ofPred_eq, ← get?_isSome_iff_mem,
      Option.isSome_iff_ne_none]
  rw [hkeys, Set.ncard_coe_finset, List.toFinset_card_of_nodup h]
  exact ⟨Finset.finite_toSet _, List.length_map _⟩

end Keyed

/-- A slot that is kept when values go has values left. -/
theorem Slot.keeping_eq_some {slot kept : Slot} {p : String → Bool}
    (h : slot.keeping p = some kept) : kept.values = slot.values.filter p ∧ kept.values ≠ [] := by
  unfold keeping at h
  split at h
  case isTrue => cases h
  case isFalse hne =>
    cases h
    exact ⟨rfl, fun hnil => hne (List.isEmpty_iff.2 hnil)⟩

namespace Directory

variable {d d' : Directory} {key value : String} {life now : Millis}

/-! ## Slots with values -/

/-- Every slot has values, each of them once. -/
def Filled (d : Directory) : Prop :=
  ∀ key slot, d.slot? key = some slot → slot.values ≠ [] ∧ slot.values.Nodup

theorem nodup_including {values : List String} (h : values.Nodup) (value : String) :
    (including value values).Nodup := by
  unfold including
  split
  case isTrue => exact h
  case isFalse hnew =>
    rw [List.nodup_append]
    refine ⟨h, List.nodup_singleton value, ?_⟩
    rintro v hv w hw rfl
    exact hnew (List.mem_singleton.1 hw ▸ hv)

theorem Filled.nodup_living (hd : d.Filled) (key : String) (now : Millis) :
    (d.living key now).Nodup := by
  rw [living_eq]
  cases hslot : d.slot? key with
  | none => exact List.nodup_nil
  | some slot =>
      rw [Option.map_some, Option.getD_some, Slot.current]
      split
      · exact (hd key slot hslot).2
      · exact List.nodup_nil

/-- Only the slot of one key has to be looked at. -/
theorem Filled.of_slot? (hd : d.Filled) (hothers : ∀ other ≠ key, d'.slot? other = d.slot? other)
    (hself : ∀ slot, d'.slot? key = some slot → slot.values ≠ [] ∧ slot.values.Nodup) :
    d'.Filled := by
  intro other slot hslot
  by_cases hkey : other = key
  · subst hkey
    exact hself slot hslot
  · exact hd other slot (hothers other hkey ▸ hslot)

theorem Filled.add (hd : d.Filled) (h : d.add key value life now = .ok d') : d'.Filled := by
  refine hd.of_slot? (fun other hne => slot?_add_of_ne h hne) fun slot hslot => ?_
  rw [slot?_add_self h] at hslot
  cases hslot
  constructor
  · exact List.ne_nil_of_mem (mem_including.2 (.inr rfl))
  · exact nodup_including (hd.nodup_living key now) value

theorem Filled.remove (hd : d.Filled) (key value : String) : (d.remove key value).Filled := by
  refine hd.of_slot? (fun other hne => slot?_remove_of_ne hne d value) fun kept hkept => ?_
  rw [slot?_remove_self] at hkept
  obtain ⟨slot, hslot, hkeeping⟩ := Option.bind_eq_some_iff.1 hkept
  obtain ⟨hvalues, hne⟩ := Slot.keeping_eq_some hkeeping
  exact ⟨hne, hvalues ▸ (hd key slot hslot).2.filter _⟩

theorem Filled.list (hd : d.Filled) (key : String) (now : Millis) : (d.list key now).2.Filled := by
  refine hd.of_slot? (fun other hne => slot?_list_of_ne hne d now) fun slot hslot => ?_
  rw [slot?_list_self, Option.filter_eq_some_iff] at hslot
  exact hd key slot hslot.1

theorem Filled.evict (hd : d.Filled) (hdistinct : d.Distinct) (now : Millis) :
    (d.evict now).2.Filled := by
  intro key slot hslot
  rw [slot?_evict hdistinct, Option.filter_eq_some_iff] at hslot
  exact hd key slot hslot.1

theorem Filled.effect (hd : d.Filled) (hdistinct : d.Distinct) (e : Event) :
    (e.effect d).Filled := by
  unfold Event.effect
  split
  case h_1 k v life hcall =>
    split
    case h_1 d' h => exact hd.add h
    case h_2 => exact hd
  case h_2 k v hcall => exact hd.remove k v
  case h_3 k hcall => exact hd.list k e.time
  case h_4 hcall => exact hd.evict hdistinct e.time

theorem filled_after (run : List Event) : (after run).Filled := by
  induction run using List.reverseRecOn with
  | nil => exact nofun
  | append_singleton run e ih =>
      rw [after_snoc]
      exact ih.effect (distinct_after run) e

/-! ## Additions that succeed -/

/-- The call is an addition that the directory takes. -/
def Event.succeeds (e : Event) (d : Directory) : Bool :=
  match e.call with
  | .add key value life => (d.add key value life e.time).isOk
  | .remove _ _ | .list _ | .evict => false

/-- How many additions of a run succeed, from a directory on. -/
def successes (d : Directory) : List Event → Nat
  | [] => 0
  | e :: later => (e.succeeds d).toNat + successes (e.effect d) later

/-- A refused addition is refused for its life time only. -/
theorem add_eq_error_iff {failure : Failure} :
    d.add key value life now = .error failure ↔
      life < minimumLife ∧ failure = .directory (minimumLife / 1000) := by
  unfold add
  split
  case isTrue h => simp [h, eq_comm]
  case isFalse h => simp [h]

theorem added_remove (d : Directory) (key value : String) :
    (d.remove key value).added = d.added := by
  unfold remove
  split
  · dsimp only
    split <;> rfl
  · rfl

theorem added_list (d : Directory) (key : String) (now : Millis) :
    (d.list key now).2.added = d.added := by
  unfold list
  split
  · split <;> rfl
  · rfl

/-- The count of additions goes up with every addition that succeeds, and only then. -/
theorem added_effect (e : Event) (d : Directory) :
    (e.effect d).added = d.added + (e.succeeds d).toNat := by
  obtain ⟨time, call⟩ := e
  cases call with
  | add k v life =>
      simp only [Event.effect, Event.succeeds]
      cases h : d.add k v life time with
      | ok d' => rw [(add_eq_ok_iff.1 h).2]; rfl
      | error failure => rfl
  | remove k v => exact added_remove d k v
  | list k => exact added_list d k time
  | evict => rfl

theorem added_foldl (d : Directory) (run : List Event) :
    (run.foldl Event.effect d).added = d.added + successes d run := by
  induction run generalizing d with
  | nil => rfl
  | cons e later ih => rw [List.foldl_cons, ih, added_effect, successes, Nat.add_assoc]

/-! ## Evictions -/

/-- The slots that an eviction drops are counted. -/
theorem evict_count (d : Directory) (now : Millis) :
    (d.evict now).1 = (d.slots.filter fun entry => !decide (now < entry.2.expires)).length := by
  have hlength := (List.filter_append_perm (fun entry : String × Slot => now < entry.2.expires)
    d.slots).length_eq
  rw [List.length_append] at hlength
  change d.slots.length -
    (d.slots.filter fun entry => decide (now < entry.2.expires)).length = _
  omega

/-- An eviction answers with the number of keys that it drops. -/
theorem evict_eq_ncard (hd : d.Distinct) (now : Millis) :
    (d.evict now).1 =
      {key | d.slot? key ≠ none ∧ (d.evict now).2.slot? key = none}.ncard := by
  have hdropped := Keyed.nodup_keys_filter hd fun entry => !decide (now < entry.2.expires)
  rw [evict_count, ← (Keyed.ncard_keys hdropped).2]
  congr 1
  ext key
  rw [Set.mem_ofPred_eq, Set.mem_ofPred_eq, Keyed.get?_filter hd, slot?_evict hd]
  change (d.slot? key).filter _ ≠ none ↔ _
  cases d.slot? key with
  | none => simp
  | some slot => by_cases h : now < slot.expires <;> simp [Option.filter, h]

/-- Right after an eviction a key lists something exactly if it has a slot. -/
theorem list_evict_ne_nil_iff (hd : d.Distinct) (hfilled : d.Filled) (key : String)
    (now : Millis) :
    ((d.evict now).2.list key now).1 ≠ [] ↔ Keyed.get? key (d.evict now).2.slots ≠ none := by
  change _ ↔ (d.evict now).2.slot? key ≠ none
  rw [list_eq_living, living_eq]
  cases hslot : (d.evict now).2.slot? key with
  | none => simp
  | some slot =>
      have hvalues := ((hfilled.evict hd now) key slot hslot).1
      rw [slot?_evict hd, Option.filter_eq_some_iff, decide_eq_true_eq] at hslot
      simp [Slot.current, hslot.2, hvalues]

/-! ## A whole run -/

/-- Whatever calls a directory has seen, its slots have values, each once. It tells as many
additions as have succeeded; an addition fails exactly for a life time that is too short, and then
nothing has changed. An eviction keeps the slots whose time is still to come and answers with the
number of the others. The number of keys told right after it is the number of keys that list
something. -/
theorem accounted_after (run : List Event) :
    (∀ entry ∈ (after run).slots, entry.2.values ≠ [] ∧ entry.2.values.Nodup) ∧
    (after run).status.stats = [("added", Decimal.text (successes empty run))] ∧
    (∀ key value life now,
      ((∃ failure, (after run).add key value life now = .error failure) ↔ life < minimumLife) ∧
      (life < minimumLife → after (run ++ [⟨now, .add key value life⟩]) = after run)) ∧
    (∀ now,
      (∀ key, ((after run).evict now).2.slot? key =
        ((after run).slot? key).filter (now < ·.expires)) ∧
      ((after run).evict now).1 =
        {key | (after run).slot? key ≠ none ∧
          ((after run).evict now).2.slot? key = none}.ncard) ∧
    ∀ now, let evicted := after (run ++ [⟨now, .evict⟩])
      {key | (evicted.list key now).1 ≠ []}.Finite ∧
      evicted.status.keyspace =
        [("keys", Decimal.text {key | (evicted.list key now).1 ≠ []}.ncard)] := by
  have hdistinct := distinct_after run
  have hfilled := filled_after run
  refine ⟨?filled, ?added, ?refused, ?evicted, ?keys⟩
  case filled =>
    rintro ⟨key, slot⟩ hmem
    exact hfilled key slot ((Keyed.mem_iff_get?_eq_some hdistinct).1 hmem)
  case added =>
    have hadded : (after run).added = successes empty run :=
      (added_foldl empty run).trans (Nat.zero_add _)
    rw [← hadded]
    rfl
  case refused =>
    intro key value life now
    constructor
    · simp [add_eq_error_iff]
    · intro hlife
      have hrefused : (after run).add key value life now =
          .error (.directory (minimumLife / 1000)) :=
        add_eq_error_iff.2 ⟨hlife, rfl⟩
      rw [after_snoc, Event.effect]
      simp only [hrefused]
  case evicted =>
    exact fun now =>
      ⟨fun key => slot?_evict hdistinct key now, evict_eq_ncard hdistinct now⟩
  case keys =>
    intro now
    dsimp only
    have hkeys : {key | (((after run).evict now).2.list key now).1 ≠ []} =
        {key | Keyed.get? key ((after run).evict now).2.slots ≠ none} := by
      ext key
      exact list_evict_ne_nil_iff hdistinct hfilled key now
    obtain ⟨hfinite, hcount⟩ := Keyed.ncard_keys (hdistinct.evict now)
    rw [after_snoc]
    change Set.Finite {key | (((after run).evict now).2.list key now).1 ≠ []} ∧
      _ = [("keys", Decimal.text {key | (((after run).evict now).2.list key now).1 ≠ []}.ncard)]
    rw [hkeys, hcount]
    exact ⟨hfinite, rfl⟩

/-- A lapsed key counts until it is evicted, and a refused addition does not count. -/
example :
    let run : List Event :=
      [⟨0, .add "k" "a" 1000⟩, ⟨900, .add "l" "b" 1000⟩, ⟨950, .add "m" "c" 999⟩]
    (after run).keyCount = 2 ∧ (after run).added = 2 ∧ ((after run).evict 1000).1 = 1 ∧
      (after (run ++ [⟨1000, .evict⟩])).keyCount = 1 := by
  decide

end Directory

end GossipDirectory
