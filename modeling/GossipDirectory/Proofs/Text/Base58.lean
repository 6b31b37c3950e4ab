import GossipDirectory.Proofs.Collection.Outcome
import GossipDirectory.Text.Base58
import Mathlib.Data.Nat.Digits.Defs
import Mathlib.Data.Nat.Digits.Lemmas

/-!
# Base 58 read back

A byte string is its leading zeros and the number that the rest writes in base 256. Both survive
the change to base 58 and back, because the digits of a number never start with a zero.
-/

namespace GossipDirectory

namespace Radix

/-! ## Digits -/

theorem digits_eq {base : Nat} (hbase : 1 < base) (n : Nat) :
    digits base n = (Nat.digits base n).reverse := by
  induction n using Nat.strongRecOn with
  | ind n ih =>
      rw [digits]
      by_cases h0 : n = 0
      · rw [dif_pos (.inr h0), h0, Nat.digits_zero]
        rfl
      · rw [dif_neg (by omega), ih _ (Nat.div_lt_self (Nat.pos_of_ne_zero h0) hbase),
          Nat.digits_def' hbase (Nat.pos_of_ne_zero h0), List.reverse_cons]

theorem ofDigits_eq (base : Nat) (ds : List Nat) :
    ofDigits base ds = Nat.ofDigits base ds.reverse := by
  induction ds using List.reverseRecOn with
  | nil => rfl
  | append_singleton ds d ih =>
      rw [List.reverse_append, List.reverse_singleton, List.singleton_append, Nat.ofDigits_cons,
        ← ih, ofDigits, List.foldl_append, Nat.add_comm]
      rfl

theorem ofDigits_digits {base : Nat} (hbase : 1 < base) (n : Nat) :
    ofDigits base (digits base n) = n := by
  rw [digits_eq hbase, ofDigits_eq, List.reverse_reverse, Nat.ofDigits_digits]

theorem digits_lt {base : Nat} (hbase : 1 < base) {n d : Nat} (h : d ∈ digits base n) :
    d < base := by
  rw [digits_eq hbase, List.mem_reverse] at h
  exact Nat.digits_lt_base hbase h

/-- The digits of a number do not start with a zero. -/
theorem head?_digits {base : Nat} (hbase : 1 < base) (n : Nat) :
    ∀ d ∈ (digits base n).head?, d ≠ 0 := by
  intro d hd
  rw [digits_eq hbase, List.head?_reverse] at hd
  have hn : n ≠ 0 := by
    rintro rfl
    rw [Nat.digits_zero] at hd
    cases hd
  rw [List.getLast?_eq_some_getLast (Nat.digits_ne_nil_iff_ne_zero.2 hn)] at hd
  cases hd
  exact Nat.getLast_digit_ne_zero base hn

/-- Digits that do not start with a zero are the digits of their number. -/
theorem digits_ofDigits {base : Nat} (hbase : 1 < base) {ds : List Nat}
    (hlt : ∀ d ∈ ds, d < base) (hhead : ∀ d ∈ ds.head?, d ≠ 0) :
    digits base (ofDigits base ds) = ds := by
  rw [digits_eq hbase, ofDigits_eq, Nat.digits_ofDigits base hbase]
  · exact List.reverse_reverse ds
  · intro d hd
    exact hlt d (List.mem_reverse.1 hd)
  · intro hne
    rw [List.getLast_reverse]
    exact hhead _ (List.head?_eq_some_head _)

theorem ofDigits_zeros (base k : Nat) (ds : List Nat) :
    ofDigits base (List.replicate k 0 ++ ds) = ofDigits base ds := by
  induction k with
  | zero => rfl
  | succ k ih => exact ih

/-! ## Leading zeros -/

section Zeros

variable {α : Type} [DecidableEq α]

theorem exists_zeros (z : α) (xs : List α) :
    ∃ k rest, xs = List.replicate k z ++ rest ∧ ∀ x ∈ rest.head?, x ≠ z := by
  induction xs with
  | nil => exact ⟨0, [], rfl, nofun⟩
  | cons x xs ih =>
      by_cases hx : x = z
      · obtain ⟨k, rest, rfl, hhead⟩ := ih
        exact ⟨k + 1, rest, by rw [hx, List.replicate_succ, List.cons_append], hhead⟩
      · refine ⟨0, x :: xs, rfl, ?_⟩
        rintro y ⟨⟩
        exact hx

theorem takeWhile_zeros {z : α} {rest : List α} (h : ∀ x ∈ rest.head?, x ≠ z) (k : Nat) :
    (List.replicate k z ++ rest).takeWhile (· = z) = List.replicate k z := by
  induction k with
  | zero =>
      cases rest with
      | nil => rfl
      | cons x rest =>
          have hx := h x rfl
          simp [hx]
  | succ k ih => simp [List.replicate_succ, ih]

end Zeros

end Radix

namespace Base58

open Radix

/-! ## Characters -/

theorem idxOf?_alphabet {d : Nat} (h : d < 58) :
    alphabet.idxOf? (alphabet.getD d '1') = some d := by
  have all : ∀ d < 58, alphabet.idxOf? (alphabet.getD d '1') = some d := by decide
  exact all d h

/-- What is written reads back. -/
theorem decode?_encode (bytes : Bytes) : decode? (encode bytes) = some bytes := by
  obtain ⟨k, rest, rfl, hhead⟩ := exists_zeros 0 bytes
  have hnumber : ofDigits 256 ((List.replicate k 0 ++ rest).map UInt8.toNat) =
      ofDigits 256 (rest.map UInt8.toNat) := by
    rw [List.map_append, List.map_replicate]
    exact ofDigits_zeros 256 k _
  have hrest : digits 256 (ofDigits 256 (rest.map UInt8.toNat)) = rest.map UInt8.toNat := by
    apply digits_ofDigits (by decide)
    · intro d hd
      obtain ⟨b, -, rfl⟩ := List.mem_map.1 hd
      exact b.toNat_lt
    · intro d hd
      rw [List.head?_map] at hd
      obtain ⟨b, hb, rfl⟩ := Option.map_eq_some_iff.1 hd
      exact fun h0 => hhead b hb (UInt8.toNat_inj.1 h0)
  generalize hn : ofDigits 256 (rest.map UInt8.toNat) = n at hnumber hrest
  have hencode : encode (List.replicate k 0 ++ rest) =
      (List.replicate k 0 ++ digits 58 n).map fun d => alphabet.getD d '1' := by
    rw [encode, takeWhile_zeros hhead, hnumber, List.map_append, List.map_replicate,
      List.map_replicate]
    rfl
  have hvalues : (encode (List.replicate k 0 ++ rest)).mapM (fun c => alphabet.idxOf? c) =
      some (List.replicate k 0 ++ digits 58 n) := by
    rw [hencode]
    apply mapM_map_eq_pure
    intro d hd
    apply idxOf?_alphabet
    rcases List.mem_append.1 hd with hd | hd
    · rw [List.eq_of_mem_replicate hd]
      decide
    · exact digits_lt (by decide) hd
  have hbase : alphabet.length = 58 := by decide
  rw [decode?, Radix.decode?, hvalues, hbase]
  change some _ = _
  rw [takeWhile_zeros (head?_digits (by decide) n), ofDigits_zeros, ofDigits_digits (by decide),
    hrest, List.map_replicate, List.map_map]
  have hinverse : UInt8.ofNat ∘ UInt8.toNat = id := funext fun b => UInt8.ofNat_toNat
  rw [hinverse, List.map_id]

/-- No slash is written. -/
theorem ne_slash_of_mem_encode {bytes : Bytes} {c : Char} (h : c ∈ encode bytes) : c ≠ '/' := by
  rw [encode] at h
  rcases List.mem_append.1 h with h | h
  · obtain ⟨b, -, rfl⟩ := List.mem_map.1 h
    decide
  · obtain ⟨d, hd, rfl⟩ := List.mem_map.1 h
    have all : ∀ d < 58, alphabet.getD d '1' ≠ '/' := by decide
    exact all d (digits_lt (by decide) hd)

end Base58

end GossipDirectory
