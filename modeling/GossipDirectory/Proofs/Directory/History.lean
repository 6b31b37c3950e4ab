import GossipDirectory.Directory.Basic
import Mathlib.Order.Bounds.Defs

/-!
# Histories of a directory

A run is a list of timed calls on a directory that starts empty. Which values a key holds at a time
is said here in terms of the calls alone, without the slots: an addition keeps its value alive while
no removal of it follows and every addition to the key from there on is followed in time by another.

## Implementation notes

A value that is added again while it lives has several additions that keep it alive. Its presence
started with the first of them.
-/

namespace GossipDirectory

namespace Directory

/-- A call on a directory. -/
inductive Call
  /-- Adds a value, for a life time. -/
  | add (key value : String) (life : Millis)
  /-- Removes a value. -/
  | remove (key value : String)
  /-- Lists a key. -/
  | list (key : String)
  /-- Drops every lapsed slot. -/
  | evict
  deriving DecidableEq, Repr

/-- A call with the time at which it is made. -/
structure Event where
  time : Millis
  call : Call
  deriving DecidableEq, Repr

namespace Event

/-- The directory after a call; a refused addition changes nothing. -/
def effect (d : Directory) (e : Event) : Directory :=
  match e.call with
  | .add key value life =>
    match d.add key value life e.time with
    | .ok d' => d'
    | .error _ => d
  | .remove key value => d.remove key value
  | .list key => (d.list key e.time).2
  | .evict => (d.evict e.time).2

/-- The value that a call adds to a key, and when it lapses unless it is refreshed. -/
def added? (key : String) (e : Event) : Option (String × Millis) :=
  match e.call with
  | .add k value life =>
    if k = key ∧ minimumLife ≤ life then some (value, e.time + life) else none
  | _ => none

/-- The value that a call removes from a key. -/
def removed? (key : String) (e : Event) : Option String :=
  match e.call with
  | .remove k value => if k = key then some value else none
  | _ => none

/-- The call adds to a key or removes from it. -/
def touches (key : String) (e : Event) : Bool :=
  (e.added? key).isSome || (e.removed? key).isSome

variable {key value : String} {lapse : Millis} {e : Event}

theorem added?_eq_some_iff :
    e.added? key = some (value, lapse) ↔
      ∃ life, e.call = .add key value life ∧ minimumLife ≤ life ∧ lapse = e.time + life := by
  constructor
  · intro h
    unfold added? at h
    split at h
    case h_1 k v life hcall =>
      split at h
      case isTrue hk =>
        cases h
        rw [hk.1] at hcall
        exact ⟨life, hcall, hk.2, rfl⟩
      case isFalse => cases h
    case h_2 => cases h
  · rintro ⟨life, hcall, hlife, rfl⟩
    simp [added?, hcall, hlife]

theorem removed?_eq_some_iff : e.removed? key = some value ↔ e.call = .remove key value := by
  constructor
  · intro h
    unfold removed? at h
    split at h
    case h_1 k v hcall =>
      split at h
      case isTrue hk =>
        cases h
        rw [hk] at hcall
        exact hcall
      case isFalse => cases h
    case h_2 => cases h
  · intro hcall
    simp [removed?, hcall]

theorem removed?_of_added (h : e.added? key = some (value, lapse)) : e.removed? key = none := by
  obtain ⟨life, hcall, -⟩ := added?_eq_some_iff.1 h
  simp [removed?, hcall]

theorem touches_eq_false_iff :
    e.touches key = false ↔ e.added? key = none ∧ e.removed? key = none := by
  simp [touches]

end Event

/-- The directory after a run. -/
def after (run : List Event) : Directory :=
  run.foldl Event.effect empty

/-- When the key is added to next, or the given time if it is not. -/
def nextAddition (key : String) (t : Millis) (later : List Event) : Millis :=
  ((later.find? fun e => (e.added? key).isSome).map Event.time).getD t

/-- Every addition to the key is followed by the next one, or by the given time, before its values
lapse. -/
def Unbroken (key : String) (t : Millis) : List Event → Prop
  | [] => True
  | e :: later =>
    (∀ value lapse, e.added? key = some (value, lapse) → nextAddition key t later < lapse) ∧
      Unbroken key t later

/-- The first call adds the value to the key and no later one loses it before the given time. -/
def Keeps (key value : String) (t : Millis) : List Event → Prop
  | [] => False
  | e :: later =>
    (∃ lapse, e.added? key = some (value, lapse)) ∧
      (∀ r ∈ later, r.removed? key ≠ some value) ∧ Unbroken key t (e :: later)

/-- The call at a position adds the value to the key, and the value is there from then on. -/
def Sustains (key : String) (t : Millis) (run : List Event) (value : String) (i : Nat) : Prop :=
  Keeps key value t (run.drop i)

/-- The position of the addition with which the present presence of a value started. -/
def Starts (key : String) (t : Millis) (run : List Event) (value : String) (i : Nat) : Prop :=
  IsLeast {j | Sustains key t run value j} i

/-! ## One more call -/

section Snoc

variable {key value : String} {t lapse : Millis} {e : Event} {added : String}

theorem nextAddition_snoc_of_none (he : e.added? key = none) (later : List Event) :
    nextAddition key t (later ++ [e]) = nextAddition key t later := by
  simp [nextAddition, List.find?_append, he]

theorem nextAddition_snoc_of_some (he : e.added? key = some (added, lapse)) (later : List Event) :
    nextAddition key t (later ++ [e]) = nextAddition key e.time later := by
  unfold nextAddition
  rw [List.find?_append]
  cases later.find? fun e => (e.added? key).isSome with
  | none => simp [he]
  | some next => rfl

theorem unbroken_snoc_of_none (he : e.added? key = none) (run : List Event) :
    Unbroken key t (run ++ [e]) ↔ Unbroken key t run := by
  induction run with
  | nil => simp [Unbroken, he]
  | cons first later ih =>
      simp only [List.cons_append, Unbroken, nextAddition_snoc_of_none he, ih]

theorem unbroken_snoc_of_some (he : e.added? key = some (added, lapse)) (run : List Event) :
    Unbroken key t (run ++ [e]) ↔ Unbroken key e.time run ∧ t < lapse := by
  induction run with
  | nil => simp [Unbroken, he, nextAddition]
  | cons first later ih =>
      simp only [List.cons_append, Unbroken, nextAddition_snoc_of_some he, ih, and_assoc]

theorem keeps_cons_snoc (first e : Event) (later : List Event) :
    Keeps key value t ((first :: later) ++ [e]) ↔
      (∃ lapse, first.added? key = some (value, lapse)) ∧
        ((∀ r ∈ later, r.removed? key ≠ some value) ∧ e.removed? key ≠ some value) ∧
          Unbroken key t ((first :: later) ++ [e]) := by
  rw [List.cons_append, Keeps, List.forall_mem_append, List.forall_mem_singleton]

/-- A call that neither adds to the key nor removes from it keeps what was there. -/
theorem keeps_snoc_of_none (ha : e.added? key = none) (hr : e.removed? key = none)
    (run : List Event) : Keeps key value t (run ++ [e]) ↔ Keeps key value t run := by
  cases run with
  | nil => simp [Keeps, ha]
  | cons first later =>
      rw [keeps_cons_snoc, unbroken_snoc_of_none ha, Keeps, hr]
      simp

/-- A removal loses the removed value only. -/
theorem keeps_snoc_of_removed {removed : String} (ha : e.added? key = none)
    (hr : e.removed? key = some removed) (run : List Event) :
    Keeps key value t (run ++ [e]) ↔ Keeps key value t run ∧ value ≠ removed := by
  cases run with
  | nil => simp [Keeps, ha]
  | cons first later =>
      rw [keeps_cons_snoc, unbroken_snoc_of_none ha, Keeps, hr]
      constructor
      · rintro ⟨hadd, ⟨hlater, hne⟩, hunbroken⟩
        exact ⟨⟨hadd, hlater, hunbroken⟩, fun h => hne (congrArg some h.symm)⟩
      · rintro ⟨⟨hadd, hlater, hunbroken⟩, hne⟩
        exact ⟨hadd, ⟨hlater, fun h => hne (Option.some.inj h).symm⟩, hunbroken⟩

/-- An addition keeps what lives at its time, and until it lapses itself. -/
theorem keeps_snoc_of_added (ha : e.added? key = some (added, lapse)) (hr : e.removed? key = none)
    {run : List Event} (hrun : run ≠ []) :
    Keeps key value t (run ++ [e]) ↔ Keeps key value e.time run ∧ t < lapse := by
  cases run with
  | nil => exact absurd rfl hrun
  | cons first later =>
      rw [keeps_cons_snoc, unbroken_snoc_of_some ha, Keeps, hr]
      simp [and_assoc]

theorem keeps_singleton (ha : e.added? key = some (added, lapse)) :
    Keeps key value t [e] ↔ value = added ∧ t < lapse := by
  simp [Keeps, Unbroken, nextAddition, ha, eq_comm]

theorem sustains_lt {run : List Event} {i : Nat} (h : Sustains key t run value i) :
    i < run.length := by
  apply Nat.lt_of_not_le
  intro hi
  rw [Sustains, List.drop_eq_nil_of_le hi] at h
  exact h

/-- Up to its end a longer run is seen from a position as before, with one more call. -/
theorem sustains_snoc {run : List Event} {i : Nat} (hi : i ≤ run.length) :
    Sustains key t (run ++ [e]) value i ↔ Keeps key value t (run.drop i ++ [e]) := by
  rw [Sustains, List.drop_append_of_le_length hi]

theorem not_sustains_of_length_lt {run : List Event} {i : Nat} (hi : run.length < i) :
    ¬ Sustains key t (run ++ [e]) value i := by
  intro h
  have hlt := sustains_lt h
  rw [List.length_append, List.length_singleton] at hlt
  omega

theorem sustains_snoc_of_none (ha : e.added? key = none) (hr : e.removed? key = none)
    (run : List Event) (i : Nat) :
    Sustains key t (run ++ [e]) value i ↔ Sustains key t run value i := by
  by_cases hi : i ≤ run.length
  · rw [sustains_snoc hi, keeps_snoc_of_none ha hr, Sustains]
  · constructor
    · intro h
      exact absurd h (not_sustains_of_length_lt (Nat.lt_of_not_le hi))
    · intro h
      exact absurd (Nat.le_of_lt (sustains_lt h)) hi

theorem sustains_snoc_of_removed {removed : String} (ha : e.added? key = none)
    (hr : e.removed? key = some removed) (run : List Event) (i : Nat) :
    Sustains key t (run ++ [e]) value i ↔ Sustains key t run value i ∧ value ≠ removed := by
  by_cases hi : i ≤ run.length
  · rw [sustains_snoc hi, keeps_snoc_of_removed ha hr, Sustains]
  · constructor
    · intro h
      exact absurd h (not_sustains_of_length_lt (Nat.lt_of_not_le hi))
    · intro h
      exact absurd (Nat.le_of_lt (sustains_lt h.1)) hi

/-- An addition sustains its own value and what lived at its time. -/
theorem sustains_snoc_of_added (ha : e.added? key = some (added, lapse))
    (hr : e.removed? key = none) (run : List Event) (i : Nat) :
    Sustains key t (run ++ [e]) value i ↔
      (Sustains key e.time run value i ∨ (value = added ∧ i = run.length)) ∧ t < lapse := by
  rcases Nat.lt_trichotomy i run.length with hi | rfl | hi
  · have hne : run.drop i ≠ [] := fun h => Nat.not_le.2 hi (List.drop_eq_nil_iff.1 h)
    rw [sustains_snoc (Nat.le_of_lt hi), keeps_snoc_of_added ha hr hne, Sustains]
    have hno : ¬ (value = added ∧ i = run.length) := fun h => Nat.ne_of_lt hi h.2
    rw [or_iff_left hno]
  · have hno : ¬ Sustains key e.time run value run.length :=
      fun h => Nat.lt_irrefl _ (sustains_lt h)
    rw [sustains_snoc (Nat.le_refl _), List.drop_length, List.nil_append, keeps_singleton ha,
      or_iff_right hno, and_iff_left rfl]
  · constructor
    · intro h
      exact absurd h (not_sustains_of_length_lt hi)
    · rintro ⟨h | h, -⟩
      · exact absurd (sustains_lt h) (Nat.lt_asymm hi)
      · exact absurd h.2 (Nat.ne_of_gt hi)

end Snoc

end Directory

end GossipDirectory
