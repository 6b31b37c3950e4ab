import GossipDirectory.Directory.Apply

/-!
# Slots after each operation

What a directory holds under a key after one of its operations, given what it held before. An
operation on a key leaves the slots of all other keys as they are, and keys stay distinct.
-/

namespace GossipDirectory

namespace Slot

/-- What is left of a slot when only some values stay; an empty slot is not kept. -/
def keeping (p : String → Bool) (slot : Slot) : Option Slot :=
  if (slot.values.filter p).isEmpty then none else some { slot with values := slot.values.filter p }

/-- The values of a slot that has not lapsed. -/
def current (slot : Slot) (now : Millis) : List String :=
  if now < slot.expires then slot.values else []

theorem keeping_keeping (slot : Slot) (p q : String → Bool) :
    (slot.keeping p).bind (keeping q) = slot.keeping fun v => p v && q v := by
  have hfilter : (slot.values.filter p).filter q = slot.values.filter fun v => p v && q v := by
    rw [List.filter_filter]
    exact List.filter_congr fun v _ => Bool.and_comm (q v) (p v)
  unfold keeping
  rw [← hfilter]
  by_cases he : (slot.values.filter p).isEmpty
  · rw [if_pos he, List.isEmpty_iff.1 he]
    rfl
  · rw [if_neg he]
    rfl

end Slot

namespace Directory

variable {d d' : Directory} {key other value : String} {life now t : Millis}

/-- The slot under a key, lapsed or not. -/
def slot? (d : Directory) (key : String) : Option Slot :=
  Keyed.get? key d.slots

/-- No key is held twice. -/
def Distinct (d : Directory) : Prop :=
  (Keyed.keys d.slots).Nodup

/-- The values with one more at the end, unless they have it already. -/
def including (value : String) (values : List String) : List String :=
  if value ∈ values then values else values ++ [value]

@[simp] theorem mem_including {v w : String} {values : List String} :
    v ∈ including w values ↔ v ∈ values ∨ v = w := by
  unfold including
  by_cases h : w ∈ values
  · rw [if_pos h]
    constructor
    · exact Or.inl
    · rintro (hv | rfl)
      · exact hv
      · exact h
  · rw [if_neg h]
    simp

theorem living_eq (d : Directory) (key : String) (now : Millis) :
    d.living key now = ((d.slot? key).map (Slot.current · now)).getD [] := by
  unfold living slot?
  cases Keyed.get? key d.slots with
  | none => rfl
  | some slot => rfl

theorem living_congr (h : d.slot? key = d'.slot? key) (now : Millis) :
    d.living key now = d'.living key now := by
  rw [living_eq, living_eq, h]

/-- Listing answers with the values that have not lapsed. -/
theorem list_eq_living (d : Directory) (key : String) (now : Millis) :
    (d.list key now).1 = d.living key now := by
  unfold list living
  cases Keyed.get? key d.slots with
  | none => rfl
  | some slot =>
      by_cases h : now < slot.expires
      · simp only [if_pos h]
      · simp only [if_neg h]

/-! ## Additions -/

/-- What an addition does unless the life time is too short. -/
theorem add_eq_ok_iff :
    d.add key value life now = .ok d' ↔
      minimumLife ≤ life ∧
        d' = { slots := Keyed.put key ⟨including value (d.living key now), now + life⟩ d.slots,
               added := d.added + 1 } := by
  unfold add
  by_cases h : life < minimumLife
  · rw [if_pos h]
    constructor
    · intro hc
      cases hc
    · intro hc
      exact absurd hc.1 (Nat.not_le.2 h)
  · rw [if_neg h]
    constructor
    · intro hc
      exact ⟨Nat.not_lt.1 h, (Except.ok.inj hc).symm⟩
    · intro hc
      rw [hc.2]
      rfl

/-- An addition is refused exactly when the life time is too short. -/
theorem add_succeeds_iff (d : Directory) (key value : String) (life now : Millis) :
    (∃ d', d.add key value life now = .ok d') ↔ minimumLife ≤ life := by
  constructor
  · rintro ⟨d', h⟩
    exact (add_eq_ok_iff.1 h).1
  · intro h
    exact ⟨_, add_eq_ok_iff.2 ⟨h, rfl⟩⟩

theorem slot?_add_self (h : d.add key value life now = .ok d') :
    d'.slot? key =
      some { values := including value (d.living key now), expires := now + life } := by
  rw [(add_eq_ok_iff.1 h).2]
  exact Keyed.get?_put_self _ _ _

theorem slot?_add_of_ne (h : d.add key value life now = .ok d') (ho : other ≠ key) :
    d'.slot? other = d.slot? other := by
  rw [(add_eq_ok_iff.1 h).2]
  exact Keyed.get?_put_of_ne ho _ _

theorem Distinct.add (hd : d.Distinct) (h : d.add key value life now = .ok d') :
    d'.Distinct := by
  rw [(add_eq_ok_iff.1 h).2]
  exact Keyed.nodup_keys_put hd _ _

/-! ## Removals -/

theorem remove_of_none (h : d.slot? key = none) (value : String) : d.remove key value = d := by
  unfold slot? at h
  unfold remove
  rw [h]

theorem slot?_remove_self (d : Directory) (key value : String) :
    (d.remove key value).slot? key = (d.slot? key).bind (Slot.keeping (· ≠ value)) := by
  cases h : d.slot? key with
  | none =>
      rw [remove_of_none h, h]
      rfl
  | some slot =>
      unfold slot? at h
      simp only [remove, h, slot?, Slot.keeping, Option.bind_some]
      split
      · exact Keyed.get?_erase_self _ _
      · exact Keyed.get?_put_self _ _ _

theorem slot?_remove_of_ne (ho : other ≠ key) (d : Directory) (value : String) :
    (d.remove key value).slot? other = d.slot? other := by
  cases h : d.slot? key with
  | none => rw [remove_of_none h]
  | some slot =>
      unfold slot? at h
      simp only [remove, h, slot?]
      split
      · exact Keyed.get?_erase_of_ne ho _
      · exact Keyed.get?_put_of_ne ho _ _

theorem Distinct.remove (hd : d.Distinct) (key value : String) :
    (d.remove key value).Distinct := by
  cases h : d.slot? key with
  | none => rwa [remove_of_none h]
  | some slot =>
      unfold slot? at h
      simp only [Directory.remove, h]
      split
      · exact Keyed.nodup_keys_erase hd _
      · exact Keyed.nodup_keys_put hd _ _

/-! ## Drops of lapsed slots -/

/-- A listing keeps the slot or drops it as lapsed. -/
theorem slot?_list_self (d : Directory) (key : String) (now : Millis) :
    ((d.list key now).2).slot? key = (d.slot? key).filter (now < ·.expires) := by
  cases h : d.slot? key with
  | none =>
      unfold slot? at h
      simp only [list, h, slot?, Option.filter]
  | some slot =>
      unfold slot? at h
      by_cases ht : now < slot.expires
      · simp [list, h, slot?, Option.filter, ht]
      · simp [list, h, slot?, Option.filter, ht]

theorem slot?_list_of_ne (ho : other ≠ key) (d : Directory) (now : Millis) :
    ((d.list key now).2).slot? other = d.slot? other := by
  unfold list
  split
  · split
    · rfl
    · exact Keyed.get?_erase_of_ne ho _
  · rfl

theorem Distinct.list (hd : d.Distinct) (key : String) (now : Millis) :
    ((d.list key now).2).Distinct := by
  unfold Directory.list
  split
  · split
    · exact hd
    · exact Keyed.nodup_keys_erase hd _
  · exact hd

/-- An eviction does to every key what a listing of it would. -/
theorem slot?_evict (hd : d.Distinct) (key : String) (now : Millis) :
    ((d.evict now).2).slot? key = (d.slot? key).filter (now < ·.expires) :=
  Keyed.get?_filter hd _ key

theorem Distinct.evict (hd : d.Distinct) (now : Millis) : ((d.evict now).2).Distinct :=
  Keyed.nodup_keys_filter hd _

/-! ## Living values after each operation -/

/-- Dropping a slot as lapsed at an earlier time does not take away a value that still lives. -/
theorem living_of_dropped (h : d'.slot? key = (d.slot? key).filter (now < ·.expires))
    (hn : now ≤ t) : d'.living key t = d.living key t := by
  rw [living_eq, living_eq, h]
  cases d.slot? key with
  | none => rfl
  | some slot =>
      by_cases ht : now < slot.expires
      · simp [Option.filter, ht]
      · have : ¬ t < slot.expires := fun hlt => ht (Nat.lt_of_le_of_lt hn hlt)
        simp [Option.filter, ht, Slot.current, this]

theorem living_add_self (h : d.add key value life now = .ok d') (t : Millis) :
    d'.living key t = if t < now + life then including value (d.living key now) else [] := by
  rw [living_eq, slot?_add_self h]
  rfl

theorem living_remove_self (d : Directory) (key value : String) (t : Millis) :
    (d.remove key value).living key t = (d.living key t).filter (· ≠ value) := by
  rw [living_eq, living_eq, slot?_remove_self]
  cases d.slot? key with
  | none => rfl
  | some slot =>
      change (((slot.keeping (· ≠ value)).map (Slot.current · t)).getD []) =
        (slot.current t).filter (· ≠ value)
      unfold Slot.keeping Slot.current
      by_cases ht : t < slot.expires
      · rw [if_pos ht]
        split
        case isTrue he => exact (List.isEmpty_iff.1 he).symm
        case isFalse => exact if_pos ht
      · rw [if_neg ht]
        split
        case isTrue => rfl
        case isFalse => exact if_neg ht

end Directory

end GossipDirectory
