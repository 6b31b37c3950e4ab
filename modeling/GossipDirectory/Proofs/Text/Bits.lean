import GossipDirectory.Text.Bits
import Mathlib.Algebra.Group.Nat.Defs

/-!
# Bit strings put together again

The bits of a number below a power of two give the number, bits give themselves again when they are
cut into pieces of one length, and whole bytes of bits correspond to the bytes.
-/

namespace GossipDirectory

namespace Bits

/-! ## Numbers -/

theorem length_bitsOf (width n : Nat) : (bitsOf width n).length = width := by
  induction width with
  | zero => rfl
  | succ width ih => rw [bitsOf, List.length_cons, ih]

theorem foldl_bits (bits : List Bool) (n : Nat) :
    bits.foldl (fun n b => 2 * n + b.toNat) n = 2 ^ bits.length * n + ofBits bits := by
  induction bits generalizing n with
  | nil => simp [ofBits]
  | cons b bits ih =>
      rw [ofBits, List.foldl_cons, List.foldl_cons, ih, ih (2 * 0 + b.toNat), List.length_cons,
        Nat.pow_succ, Nat.mul_add, Nat.mul_zero, Nat.zero_add, Nat.mul_assoc, Nat.add_assoc]

theorem ofBits_cons (b : Bool) (bits : List Bool) :
    ofBits (b :: bits) = 2 ^ bits.length * b.toNat + ofBits bits := by
  rw [ofBits, List.foldl_cons, foldl_bits, Nat.mul_zero, Nat.zero_add]

theorem ofBits_lt (bits : List Bool) : ofBits bits < 2 ^ bits.length := by
  induction bits with
  | nil => decide
  | cons b bits ih =>
      rw [ofBits_cons, List.length_cons, Nat.pow_succ]
      cases b with
      | false => simp only [Bool.toNat_false]; omega
      | true => simp only [Bool.toNat_true]; omega

theorem ofBits_bitsOf (width n : Nat) : ofBits (bitsOf width n) = n % 2 ^ width := by
  induction width with
  | zero => rw [Nat.pow_zero, Nat.mod_one]; rfl
  | succ width ih =>
      rw [bitsOf, ofBits_cons, length_bitsOf, Nat.toNat_testBit, ih, Nat.mod_pow_succ, Nat.add_comm]

theorem bitsOf_congr {width n m : Nat} (h : ∀ i < width, n.testBit i = m.testBit i) :
    bitsOf width n = bitsOf width m := by
  induction width with
  | zero => rfl
  | succ width ih =>
      rw [bitsOf, bitsOf, h width (Nat.lt_succ_self width),
        ih fun i hi => h i (Nat.lt_succ_of_lt hi)]

theorem bitsOf_ofBits (bits : List Bool) : bitsOf bits.length (ofBits bits) = bits := by
  induction bits with
  | nil => rfl
  | cons b bits ih =>
      have hbit := Nat.testBit_two_pow_mul_add b.toNat (ofBits_lt bits)
      have htail : bitsOf bits.length (ofBits (b :: bits)) = bits := by
        rw [ofBits_cons, bitsOf_congr fun i hi => (hbit i).trans (if_pos hi), ih]
      rw [List.length_cons, bitsOf, htail, ofBits_cons, hbit, if_neg (Nat.lt_irrefl _),
        Nat.sub_self]
      cases b with
      | false => rfl
      | true => rfl

/-! ## Pieces -/

section Pieces

variable {α : Type} {size : Nat}

theorem pieces_append {xs : List α} (h : xs.length = size + 1) (ys : List α) :
    pieces size (xs ++ ys) = xs :: pieces size ys := by
  cases xs with
  | nil => cases h
  | cons x xs =>
      have hlength : xs.length = size := Nat.succ.inj h
      rw [List.cons_append, pieces, ← hlength, List.take_left, List.drop_left]

theorem pieces_flatten {ps : List (List α)} (h : ∀ p ∈ ps, p.length = size + 1) (ys : List α) :
    pieces size (ps.flatten ++ ys) = ps ++ pieces size ys := by
  induction ps with
  | nil => rfl
  | cons p ps ih =>
      rw [List.flatten_cons, List.append_assoc, pieces_append (h p List.mem_cons_self),
        ih fun q hq => h q (List.mem_cons_of_mem p hq), List.cons_append]

/-- A list whose length is a multiple consists of pieces of one length. -/
theorem exists_flatten (k : Nat) {xs : List α} (h : xs.length = k * size) :
    ∃ ps : List (List α), ps.length = k ∧ (∀ p ∈ ps, p.length = size) ∧ xs = ps.flatten := by
  induction k generalizing xs with
  | zero =>
      rw [Nat.zero_mul, List.length_eq_zero_iff] at h
      exact ⟨[], rfl, nofun, h⟩
  | succ k ih =>
      rw [Nat.succ_mul] at h
      have hrest : (xs.drop size).length = k * size := by
        rw [List.length_drop]
        omega
      obtain ⟨ps, hlength, hps, hflatten⟩ := ih hrest
      refine ⟨xs.take size :: ps, by rw [List.length_cons, hlength], ?_, ?_⟩
      · intro p hp
        rcases List.mem_cons.1 hp with rfl | hp
        · rw [List.length_take]
          omega
        · exact hps p hp
      · rw [List.flatten_cons, ← hflatten, List.take_append_drop]

end Pieces

/-! ## Bytes -/

theorem length_bitsOfBytes (bytes : Bytes) : (bitsOfBytes bytes).length = bytes.length * 8 := by
  induction bytes with
  | nil => rfl
  | cons b bytes ih =>
      rw [bitsOfBytes, List.flatMap_cons, List.length_append, length_bitsOf, ← bitsOfBytes, ih,
        List.length_cons, Nat.succ_mul, Nat.add_comm]

theorem bytesOfBits_bitsOfBytes (bytes : Bytes) : bytesOfBits (bitsOfBytes bytes) = bytes := by
  have hlength : ∀ p ∈ bytes.map fun b => bitsOf 8 b.toNat, p.length = 7 + 1 := by
    intro p hp
    obtain ⟨b, -, rfl⟩ := List.mem_map.1 hp
    exact length_bitsOf 8 _
  have hpieces := pieces_flatten hlength []
  rw [List.append_nil] at hpieces
  rw [bytesOfBits, bitsOfBytes, List.flatMap, hpieces, pieces, List.append_nil,
    List.filter_eq_self.2 fun p hp => decide_eq_true (hlength p hp), List.map_map]
  have hinverse : ((fun p => UInt8.ofNat (ofBits p)) ∘ fun b : UInt8 => bitsOf 8 b.toNat) = id := by
    funext b
    change UInt8.ofNat (ofBits (bitsOf 8 b.toNat)) = b
    rw [ofBits_bitsOf, Nat.mod_eq_of_lt b.toNat_lt, UInt8.ofNat_toNat]
  rw [hinverse, List.map_id]

/-- Bits give no more bytes than they have room for. -/
theorem length_bytesOfBits_le (bits : List Bool) : (bytesOfBits bits).length * 8 ≤ bits.length := by
  rw [bytesOfBits, List.length_map]
  induction hlength : bits.length using Nat.strongRecOn generalizing bits with
  | ind n ih =>
      cases bits with
      | nil => simp [pieces]
      | cons b bits =>
          rw [List.length_cons] at hlength
          have hrest := ih (bits.drop 7).length (by rw [List.length_drop]; omega) _ rfl
          rw [List.length_drop] at hrest
          rw [pieces, List.filter_cons]
          split
          · next hwhole =>
              simp only [List.length_cons, List.length_take, decide_eq_true_eq] at hwhole ⊢
              omega
          · omega

theorem length_flatMap_bitsOf (width : Nat) (values : List Nat) :
    (values.flatMap (bitsOf width)).length = values.length * width := by
  induction values with
  | nil => rw [List.flatMap_nil, List.length_nil, List.length_nil, Nat.zero_mul]
  | cons v values ih =>
      rw [List.flatMap_cons, List.length_append, length_bitsOf, ih, List.length_cons,
        Nat.succ_mul, Nat.add_comm]

/-- Whole bytes of bits give the bits again. -/
theorem bitsOfBytes_bytesOfBits (m : Nat) {bits : List Bool} (h : bits.length = m * 8) :
    bitsOfBytes (bytesOfBits bits) = bits ∧ (bytesOfBits bits).length = m := by
  obtain ⟨ps, hcount, hps, rfl⟩ := exists_flatten m h
  have hpieces : pieces 7 ps.flatten = ps := by
    rw [← List.append_nil ps.flatten, pieces_flatten hps [], pieces, List.append_nil]
  rw [bytesOfBits, hpieces, List.filter_eq_self.2 fun p hp => decide_eq_true (hps p hp)]
  constructor
  · rw [bitsOfBytes, List.flatMap_map, List.flatMap]
    congr 1
    rw [List.map_congr_left fun p hp => ?_, List.map_id]
    have hlt : ofBits p < 256 := by
      have hbits := ofBits_lt p
      rwa [hps p hp] at hbits
    have hbits := bitsOf_ofBits p
    rw [hps p hp] at hbits
    rwa [UInt8.toNat_ofNat_of_lt' hlt]
  · rw [List.length_map, hcount]

end Bits

end GossipDirectory
