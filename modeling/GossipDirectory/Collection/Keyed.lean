/-!
# Keyed lists

A finite map kept as a list of pairs with distinct keys, in the order in which the keys arrived.
Looking up after a change gives the changed value at its key and the old one elsewhere.
-/

namespace GossipDirectory

namespace Keyed

variable {κ α : Type} [DecidableEq κ]

/-- The value at a key. -/
def get? (key : κ) : List (κ × α) → Option α
  | [] => none
  | (k, v) :: rest => if k = key then some v else get? key rest

/-- Sets the value at a key; a new key comes last. -/
def put (key : κ) (value : α) : List (κ × α) → List (κ × α)
  | [] => [(key, value)]
  | (k, v) :: rest => if k = key then (key, value) :: rest else (k, v) :: put key value rest

/-- Removes a key. -/
def erase (key : κ) (m : List (κ × α)) : List (κ × α) :=
  m.filter (·.1 ≠ key)

/-- Whether a key is present. -/
def contains (key : κ) (m : List (κ × α)) : Bool :=
  (get? key m).isSome

/-- The keys, in order. -/
def keys (m : List (κ × α)) : List κ :=
  m.map (·.1)

@[simp] theorem get?_nil (key : κ) : get? key ([] : List (κ × α)) = none := rfl

theorem get?_append (key : κ) (m m' : List (κ × α)) :
    get? key (m ++ m') = (get? key m).or (get? key m') := by
  induction m with
  | nil => rfl
  | cons entry rest ih =>
    obtain ⟨k, v⟩ := entry
    by_cases h : k = key
    · simp [get?, h]
    · simp [get?, h, ih]

theorem get?_snoc_self {key : κ} {m : List (κ × α)} (h : get? key m = none) (value : α) :
    get? key (m ++ [(key, value)]) = some value := by
  rw [get?_append, h]
  simp [get?]

theorem get?_snoc_of_ne {key other : κ} (h : key ≠ other) (m : List (κ × α)) (value : α) :
    get? other (m ++ [(key, value)]) = get? other m := by
  rw [get?_append]
  simp [get?, h]

@[simp] theorem get?_put_self (key : κ) (value : α) (m : List (κ × α)) :
    get? key (put key value m) = some value := by
  induction m with
  | nil => simp [put, get?]
  | cons entry rest ih =>
    obtain ⟨k, v⟩ := entry
    by_cases h : k = key
    · simp [put, get?, h]
    · simp [put, get?, h, ih]

theorem get?_put_of_ne {key other : κ} (h : other ≠ key) (value : α) (m : List (κ × α)) :
    get? other (put key value m) = get? other m := by
  induction m with
  | nil => simp [put, get?, Ne.symm h]
  | cons entry rest ih =>
    obtain ⟨k, v⟩ := entry
    by_cases hk : k = key
    · subst hk
      simp [put, get?, Ne.symm h]
    · simp only [put, if_neg hk, get?, ih]

@[simp] theorem get?_erase_self (key : κ) (m : List (κ × α)) : get? key (erase key m) = none := by
  induction m with
  | nil => rfl
  | cons entry rest ih =>
    obtain ⟨k, v⟩ := entry
    by_cases h : k = key
    · simpa [erase, h] using ih
    · simpa [erase, h, get?] using ih

theorem get?_erase_of_ne {key other : κ} (h : other ≠ key) (m : List (κ × α)) :
    get? other (erase key m) = get? other m := by
  induction m with
  | nil => rfl
  | cons entry rest ih =>
    obtain ⟨k, v⟩ := entry
    by_cases hk : k = key
    · subst hk
      simpa [erase, get?, Ne.symm h] using ih
    · by_cases ho : k = other
      · simp [erase, get?, ho, h]
      · simpa [erase, get?, hk, ho] using ih

theorem erase_of_get?_eq_none {key : κ} {m : List (κ × α)} (h : get? key m = none) :
    erase key m = m := by
  induction m with
  | nil => rfl
  | cons entry rest ih =>
    obtain ⟨k, v⟩ := entry
    by_cases hk : k = key
    · simp [get?, hk] at h
    · simp only [get?, if_neg hk] at h
      simpa [erase, hk] using ih h

theorem length_erase_lt {key : κ} {m : List (κ × α)} (h : get? key m ≠ none) :
    (erase key m).length < m.length := by
  apply Nat.lt_of_le_of_ne (List.length_filter_le _ _)
  intro heq
  have hself : erase key m = m := List.filter_sublist.eq_of_length heq
  exact h (hself ▸ get?_erase_self key m)

theorem length_put_le (key : κ) (value : α) (m : List (κ × α)) :
    (put key value m).length ≤ m.length + 1 := by
  induction m with
  | nil => exact Nat.le_refl _
  | cons entry rest ih =>
    obtain ⟨k, v⟩ := entry
    by_cases hk : k = key
    · simp [put, hk]
    · simpa [put, hk] using ih

theorem get?_isSome_iff_mem (key : κ) (m : List (κ × α)) :
    (get? key m).isSome ↔ key ∈ keys m := by
  induction m with
  | nil => simp [keys]
  | cons entry rest ih =>
    obtain ⟨k, v⟩ := entry
    by_cases h : k = key
    · simp [get?, keys, h]
    · simp only [get?, if_neg h, ih, keys, List.map_cons, List.mem_cons]
      constructor
      · exact Or.inr
      · rintro (rfl | hm)
        · exact absurd rfl h
        · exact hm

/-- With distinct keys, an entry is what its key looks up. -/
theorem mem_iff_get?_eq_some {m : List (κ × α)} (h : (keys m).Nodup) {key : κ} {value : α} :
    (key, value) ∈ m ↔ get? key m = some value := by
  induction m with
  | nil => simp
  | cons entry rest ih =>
    obtain ⟨k, v⟩ := entry
    have hc : k ∉ keys rest ∧ (keys rest).Nodup := List.nodup_cons.1 h
    by_cases hk : k = key
    · subst hk
      have hrest : (k, value) ∉ rest := fun hm => hc.1 (List.mem_map_of_mem hm)
      simp [get?, hrest, eq_comm]
    · simp [get?, hk, Ne.symm hk, ih hc.2]

theorem mem_put_self (key : κ) (value : α) (m : List (κ × α)) : (key, value) ∈ put key value m := by
  induction m with
  | nil => exact List.mem_cons_self
  | cons entry rest ih =>
    obtain ⟨k, v⟩ := entry
    by_cases hk : k = key
    · simp [put, hk]
    · simp [put, hk, ih]

omit [DecidableEq κ] in
theorem nodup_keys_filter {m : List (κ × α)} (h : (keys m).Nodup) (p : κ × α → Bool) :
    (keys (m.filter p)).Nodup :=
  h.sublist (List.filter_sublist.map _)

theorem nodup_keys_erase {m : List (κ × α)} (h : (keys m).Nodup) (key : κ) :
    (keys (erase key m)).Nodup :=
  nodup_keys_filter h _

theorem mem_keys_put {key k : κ} {value : α} {m : List (κ × α)} (h : k ∈ keys (put key value m)) :
    k = key ∨ k ∈ keys m := by
  rw [← get?_isSome_iff_mem] at h
  by_cases hk : k = key
  · exact .inl hk
  · rw [get?_put_of_ne hk, get?_isSome_iff_mem] at h
    exact .inr h

theorem nodup_keys_put {m : List (κ × α)} (h : (keys m).Nodup) (key : κ) (value : α) :
    (keys (put key value m)).Nodup := by
  induction m with
  | nil => simp [put, keys]
  | cons entry rest ih =>
    obtain ⟨k, v⟩ := entry
    have hc : k ∉ keys rest ∧ (keys rest).Nodup := List.nodup_cons.1 h
    by_cases hk : k = key
    · subst hk
      simpa [put, keys] using h
    · have hn : k ∉ keys (put key value rest) := fun hm => (mem_keys_put hm).elim hk hc.1
      simpa [put, hk, keys] using List.nodup_cons.2 ⟨hn, ih hc.2⟩

/-- With distinct keys, dropping entries does not bring up others. -/
theorem get?_filter {m : List (κ × α)} (h : (keys m).Nodup) (p : κ × α → Bool) (key : κ) :
    get? key (m.filter p) = (get? key m).filter fun v => p (key, v) := by
  induction m with
  | nil => rfl
  | cons entry rest ih =>
    obtain ⟨k, v⟩ := entry
    have hc : k ∉ keys rest ∧ (keys rest).Nodup := List.nodup_cons.1 h
    by_cases hk : k = key
    · subst hk
      have hnone : get? k rest = none := by
        rw [← Option.not_isSome_iff_eq_none, get?_isSome_iff_mem]
        exact hc.1
      by_cases hp : p (k, v)
      · simp [hp, get?, Option.filter]
      · simp [hp, get?, Option.filter, ih hc.2, hnone]
    · by_cases hp : p (k, v)
      · simp [hp, get?, hk, ih hc.2]
      · simp [hp, get?, hk, ih hc.2]

end Keyed

end GossipDirectory
