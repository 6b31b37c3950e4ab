import GossipDirectory.Collection.Shuffle
import Mathlib.Data.List.FinRange
import Mathlib.Data.List.Perm.Basic

/-!
# What a shuffle can bring up

Whoever takes the first elements of a shuffled list draws without replacement. Equal elements at
different places count separately, so what is drawn is said by places: no place comes twice, and
any choice of places in any order comes up for some draws.
-/

namespace GossipDirectory

variable {α β : Type} {n : Nat} {xs ys : List α}

/-- As many elements as asked for, each from a place of its own, in any order. -/
def DrawnFrom (n : Nat) (xs ys : List α) : Prop :=
  ∃ places : List (Fin xs.length), places.Nodup ∧ places.length = n ∧ places.map xs.get = ys

/-- A draw brings up the element at its place and leaves the others. -/
theorem shuffle_append_cons (draws : List Nat) (before : List α) (x : α) (after : List α) :
    shuffle (before.length :: draws) (before ++ x :: after) =
      x :: shuffle draws (before ++ after) := by
  have hplace : before.length % (before ++ x :: after).length = before.length := by
    apply Nat.mod_eq_of_lt
    rw [List.length_append, List.length_cons]
    omega
  simp only [shuffle, hplace, List.drop_left, List.eraseIdx_append_of_length_le (Nat.le_refl _),
    Nat.sub_self, List.eraseIdx_cons_zero]

/-- Draws choose places, whatever stands there. -/
theorem shuffle_map (f : α → β) (draws : List Nat) (xs : List α) :
    shuffle draws (xs.map f) = (shuffle draws xs).map f := by
  induction draws generalizing xs with
  | nil => rfl
  | cons draw draws ih =>
      simp only [shuffle, List.length_map, ← List.map_drop, List.eraseIdx_map, ih]
      cases xs.drop (draw % xs.length) with
      | nil => rfl
      | cons x rest => rfl

/-- Every order comes up for some draws. -/
theorem exists_shuffle_eq (h : ys.Perm xs) : ∃ draws, shuffle draws xs = ys := by
  induction ys generalizing xs with
  | nil =>
      rw [h.nil_eq]
      exact ⟨[], rfl⟩
  | cons y ys ih =>
      obtain ⟨before, after, rfl⟩ := List.append_of_mem (h.subset List.mem_cons_self)
      obtain ⟨draws, hdraws⟩ := ih (h.trans List.perm_middle).cons_inv
      exact ⟨before.length :: draws, by rw [shuffle_append_cons, hdraws]⟩

/-- The first elements of a shuffled list are what can be drawn from it. -/
theorem drawnFrom_iff (h : n ≤ xs.length) :
    DrawnFrom n xs ys ↔ ∃ draws, (shuffle draws xs).take n = ys := by
  have hmap : ∀ draws,
      shuffle draws xs = (shuffle draws (List.finRange xs.length)).map xs.get := by
    intro draws
    rw [← shuffle_map, List.map_get_finRange]
  constructor
  · rintro ⟨places, hnodup, rfl, rfl⟩
    let others := (List.finRange xs.length).filter (· ∉ places)
    have hall : (places ++ others).Perm (List.finRange xs.length) := by
      rw [List.perm_ext_iff_of_nodup _ (List.nodup_finRange _)]
      · intro place
        simp [others, Classical.em]
      · refine hnodup.append ((List.nodup_finRange _).filter _) ?_
        intro place hmem hother
        exact absurd hmem (by simpa [others] using hother)
    obtain ⟨draws, hdraws⟩ := exists_shuffle_eq hall
    refine ⟨draws, ?_⟩
    rw [hmap, hdraws, ← List.map_take, List.take_left]
  · rintro ⟨draws, rfl⟩
    have hperm := shuffle_perm draws (List.finRange xs.length)
    refine ⟨(shuffle draws (List.finRange xs.length)).take n, ?_, ?_, ?_⟩
    · exact (hperm.nodup_iff.2 (List.nodup_finRange _)).sublist (List.take_sublist _ _)
    · rw [List.length_take, hperm.length_eq, List.length_finRange, Nat.min_eq_left h]
    · rw [hmap, List.map_take]

/-- The whole list in its order is one way to draw all of it. -/
theorem drawnFrom_self (xs : List α) : DrawnFrom xs.length xs xs :=
  ⟨List.finRange _, List.nodup_finRange _, List.length_finRange, List.map_get_finRange xs⟩

/-- What is left of a list that is shuffled and cut off unless it is short. -/
theorem drawnFrom_ite {long : Prop} [Decidable long] (hlong : long → n ≤ xs.length)
    (hshort : ¬long → xs.length ≤ n) (draws : List Nat) :
    DrawnFrom (min n xs.length) xs (if long then (shuffle draws xs).take n else xs) := by
  split
  case isTrue h =>
    rw [Nat.min_eq_left (hlong h), drawnFrom_iff (hlong h)]
    exact ⟨draws, rfl⟩
  case isFalse h =>
    rw [Nat.min_eq_right (hshort h)]
    exact drawnFrom_self xs

theorem DrawnFrom.subset (h : DrawnFrom n xs ys) : ys ⊆ xs := by
  obtain ⟨places, -, -, rfl⟩ := h
  intro y hy
  obtain ⟨place, -, rfl⟩ := List.mem_map.1 hy
  exact List.get_mem xs place

/-- Every element can be among those that are drawn, if any are. -/
theorem exists_drawnFrom_mem {x : α} (hmem : x ∈ xs) (hpos : 0 < n) (h : n ≤ xs.length) :
    ∃ ys, DrawnFrom n xs ys ∧ x ∈ ys := by
  obtain ⟨before, after, rfl⟩ := List.append_of_mem hmem
  refine ⟨(x :: (before ++ after)).take n, (drawnFrom_iff h).2 ⟨[before.length], ?_⟩, ?_⟩
  · rw [shuffle_append_cons]
    rfl
  · rw [List.take_cons hpos]
    exact List.mem_cons_self

end GossipDirectory
