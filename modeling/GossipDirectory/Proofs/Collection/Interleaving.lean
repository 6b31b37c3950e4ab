import Mathlib.Data.List.Forall2

/-!
# Interleavings

A list interleaves some lists when it takes the head of one of them after the other until all are
used up. What comes last in an interleaving of equal lists is what comes last in each of them. An
interleaving grows with its lists, and its first part takes a first part of each of them.
-/

namespace GossipDirectory

variable {α β : Type}

/-- A list made of the elements of some lists, each list in its own order. -/
inductive Interleaves : List (List α) → List α → Prop
  /-- All lists are used up. -/
  | done {lists : List (List α)} : (∀ l ∈ lists, l = []) → Interleaves lists []
  /-- The next element is the head of one of the lists. -/
  | take (before : List (List α)) (x : α) (l : List α) (after : List (List α)) {trace : List α} :
    Interleaves (before ++ l :: after) trace →
      Interleaves (before ++ (x :: l) :: after) (x :: trace)

/-- The result for the last element that has one. -/
def lastSome (f : α → Option β) (l : List α) : Option β :=
  l.reverse.findSome? f

@[simp] theorem lastSome_nil (f : α → Option β) : lastSome f [] = none := rfl

theorem lastSome_cons (f : α → Option β) (x : α) (l : List α) :
    lastSome f (x :: l) = (lastSome f l).or (f x) := by
  simp [lastSome, List.findSome?_append]

theorem lastSome_snoc (f : α → Option β) (l : List α) (x : α) :
    lastSome f (l ++ [x]) = (f x).or (lastSome f l) := by
  rw [lastSome, List.reverse_append, List.reverse_singleton, List.findSome?_append]
  cases h : f x <;> simp [h, lastSome]

theorem lastSome_eq_none_iff {f : α → Option β} {l : List α} :
    lastSome f l = none ↔ ∀ x ∈ l, f x = none := by
  simp [lastSome, List.findSome?_eq_none_iff]

namespace Interleaves

variable {lists : List (List α)} {trace : List α} {f : α → Option β}

/-- What an interleaving lacks, each of its lists lacks. -/
theorem lastSome_eq_none (h : Interleaves lists trace) (hnone : lastSome f trace = none) :
    ∀ l ∈ lists, lastSome f l = none := by
  induction h with
  | done hnil =>
      intro l hl
      rw [hnil l hl, lastSome_nil]
  | take before x l after _ ih =>
      rw [lastSome_cons, Option.or_eq_none_iff] at hnone
      have hrest := ih hnone.1
      intro l' hl'
      rw [List.mem_append, List.mem_cons] at hl'
      rcases hl' with hl' | rfl | hl'
      · exact hrest l' (List.mem_append_left _ hl')
      · have hl := hrest l (List.mem_append_right _ (List.mem_cons_self ..))
        rw [lastSome_cons, hl, hnone.2]
        rfl
      · exact hrest l' (List.mem_append_right _ (List.mem_cons_of_mem _ hl'))

/-- What comes last in an interleaving comes last in one of its lists. -/
theorem exists_lastSome_eq (h : Interleaves lists trace) {b : β}
    (hb : lastSome f trace = some b) : ∃ l ∈ lists, lastSome f l = some b := by
  induction h with
  | done => cases hb
  | @take before x l after rest h ih =>
      rw [lastSome_cons] at hb
      cases hrest : lastSome f rest with
      | some c =>
          rw [hrest] at hb
          obtain ⟨l', hl', hlast⟩ := ih (hrest.trans hb)
          rw [List.mem_append, List.mem_cons] at hl'
          rcases hl' with hl' | rfl | hl'
          · exact ⟨l', List.mem_append_left _ hl', hlast⟩
          · refine ⟨x :: l', List.mem_append_right _ (List.mem_cons_self ..), ?_⟩
            rw [lastSome_cons, hlast]
            rfl
          · exact ⟨l', List.mem_append_right _ (List.mem_cons_of_mem _ hl'), hlast⟩
      | none =>
          rw [hrest] at hb
          have hl := h.lastSome_eq_none hrest l (List.mem_append_right _ (List.mem_cons_self ..))
          refine ⟨x :: l, List.mem_append_right _ (List.mem_cons_self ..), ?_⟩
          rw [lastSome_cons, hl]
          exact hb

/-- Copies of one list, at least one, have the same last element however they interleave. -/
theorem lastSome_replicate {n : Nat} {l : List α} (h : Interleaves (List.replicate n l) trace)
    (hn : 1 ≤ n) (f : α → Option β) : lastSome f trace = lastSome f l := by
  cases hlast : lastSome f trace with
  | none =>
      have hl : l ∈ List.replicate n l := List.mem_replicate.2 ⟨by omega, rfl⟩
      exact (h.lastSome_eq_none hlast l hl).symm
  | some b =>
      obtain ⟨l', hl', hb⟩ := h.exists_lastSome_eq hlast
      rw [List.eq_of_mem_replicate hl'] at hb
      exact hb.symm

/-- One of the lists and the interleaving go on with one more element. -/
theorem snoc (h : Interleaves lists trace) {i : Nat} {l : List α} (hl : lists[i]? = some l)
    (x : α) : Interleaves (lists.set i (l ++ [x])) (trace ++ [x]) := by
  induction h generalizing i l with
  | @done lists hnil =>
      obtain ⟨hi, rfl⟩ := List.getElem?_eq_some_iff.1 hl
      rw [hnil _ (List.getElem_mem hi), List.set_eq_take_append_cons_drop, if_pos hi]
      apply take
      apply done
      intro l hl
      rw [List.mem_append, List.mem_cons] at hl
      rcases hl with hl | rfl | hl
      · exact hnil l (List.mem_of_mem_take hl)
      · rfl
      · exact hnil l (List.mem_of_mem_drop hl)
  | take before y rest after h ih =>
      rcases Nat.lt_trichotomy i before.length with hi | rfl | hi
      · rw [List.getElem?_append_left hi] at hl
        have hnext := ih (i := i) ((List.getElem?_append_left hi).trans hl)
        rw [List.set_append_left _ _ hi] at hnext ⊢
        exact take _ y rest after hnext
      · have hself : (before ++ rest :: after)[before.length]? = some rest := by simp
        have hy : y :: rest = l := by simpa using hl
        have hnext := ih hself
        rw [List.set_append_right _ _ (Nat.le_refl _), Nat.sub_self, List.set_cons_zero] at hnext ⊢
        rw [← hy]
        exact take before y _ after hnext
      · obtain ⟨k, rfl⟩ := Nat.exists_eq_add_of_lt hi
        have hk (x : List α) : (before ++ x :: after)[before.length + k + 1]? = after[k]? := by
          rw [List.getElem?_append_right (by omega), Nat.add_assoc, Nat.add_sub_cancel_left,
            List.getElem?_cons_succ]
        have hset (x z : List α) : (before ++ x :: after).set (before.length + k + 1) z =
            before ++ x :: after.set k z := by
          rw [List.set_append_right _ _ (by omega), Nat.add_assoc, Nat.add_sub_cancel_left,
            List.set_cons_succ]
        have hnext := ih (i := before.length + k + 1) (hk rest ▸ hk (y :: rest) ▸ hl)
        rw [hset] at hnext ⊢
        exact take before y rest _ hnext

/-- The first part of an interleaving interleaves first parts of the lists. -/
theorem of_append {first rest : List α} (h : Interleaves lists (first ++ rest)) :
    ∃ firsts, List.Forall₂ (· <+: ·) firsts lists ∧ Interleaves firsts first := by
  induction first generalizing lists with
  | nil =>
      refine ⟨lists.map fun _ => [], ?_, .done fun l hl => ?_⟩
      · rw [List.forall₂_map_left_iff]
        exact List.forall₂_same.2 fun l _ => List.nil_prefix
      · obtain ⟨-, -, rfl⟩ := List.mem_map.1 hl
        rfl
  | cons x first ih =>
      cases h with
      | take before _ l after h =>
          obtain ⟨firsts, hprefix, hfirst⟩ := ih h
          have hbefore := List.forall₂_take_append firsts before (l :: after) hprefix
          have hafter := List.forall₂_drop_append firsts before (l :: after) hprefix
          obtain ⟨l', after', hl, hafter, hdrop⟩ := List.forall₂_cons_right_iff.1 hafter
          rw [← List.take_append_drop before.length firsts, hdrop] at hfirst
          refine ⟨firsts.take before.length ++ (x :: l') :: after', ?_, take _ x l' after' hfirst⟩
          exact List.rel_append hbefore (.cons (List.cons_prefix_cons.2 ⟨rfl, hl⟩) hafter)

end Interleaves

end GossipDirectory
