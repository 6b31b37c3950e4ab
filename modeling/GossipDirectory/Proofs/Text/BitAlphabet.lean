import GossipDirectory.Proofs.Collection.Outcome
import GossipDirectory.Proofs.Text.Bits
import GossipDirectory.Text.BitAlphabet
import Mathlib.Data.List.Nodup
import Mathlib.Data.List.GetD

/-!
# Alphabets of a few bits read back

Bits that fill up the last character are too few for a byte and zero, so reading drops them. A text
and the bytes that it reads to determine each other's length.
-/

namespace GossipDirectory

namespace Bits

/-- A piece with zero bits for those that it lacks. -/
def fill (width : Nat) (piece : List Bool) : List Bool :=
  piece ++ List.replicate (width - piece.length) false

theorem length_fill {width : Nat} {piece : List Bool} (h : piece.length ≤ width) :
    (fill width piece).length = width := by
  rw [fill, List.length_append, List.length_replicate, Nat.add_sub_cancel' h]

theorem length_le_of_mem_pieces {α : Type} {size : Nat} {xs p : List α}
    (h : p ∈ pieces size xs) : p.length ≤ size + 1 := by
  induction xs using pieces.induct size with
  | case1 =>
      rw [pieces] at h
      cases h
  | case2 x xs ih =>
      rw [pieces, List.mem_cons] at h
      rcases h with rfl | h
      · rw [List.length_cons, List.length_take]
        omega
      · exact ih h

/-- Pieces that are filled up are the bits and less than a piece of zeros. -/
theorem exists_flatMap_fill (size : Nat) (bits : List Bool) :
    ∃ r < size + 1, (pieces size bits).flatMap (fill (size + 1)) =
      bits ++ List.replicate r false := by
  induction bits using pieces.induct size with
  | case1 => exact ⟨0, Nat.succ_pos size, by rw [pieces]; rfl⟩
  | case2 b bits ih =>
      by_cases hlong : size ≤ bits.length
      · obtain ⟨r, hr, hfill⟩ := ih
        refine ⟨r, hr, ?_⟩
        have hlength : (b :: bits.take size).length = size + 1 := by
          rw [List.length_cons, List.length_take, Nat.min_eq_left hlong]
        rw [pieces, List.flatMap_cons, hfill, fill, hlength, Nat.sub_self, List.replicate_zero,
          List.append_nil, List.cons_append, ← List.append_assoc, List.take_append_drop,
          List.cons_append]
      · refine ⟨size - bits.length, by omega, ?_⟩
        rw [pieces, List.take_of_length_le (by omega), List.drop_of_length_le (by omega), pieces,
          List.flatMap_cons, List.flatMap_nil, List.append_nil, fill, List.length_cons,
          Nat.add_sub_add_right]

end Bits

namespace BitAlphabet

open Bits

variable {a : BitAlphabet}

/-! ## Digits -/

theorem digits_getD {d : Nat} (h : d < 2 ^ a.width) :
    a.digits.getD d '=' ∈ a.digits ∧ a.digits.idxOf? (a.digits.getD d '=') = some d := by
  have hd : d < a.digits.length := by
    rw [a.length_eq, Nat.one_shiftLeft]
    exact h
  rw [List.getD_eq_getElem _ _ hd, List.idxOf?_eq_some_iff]
  refine ⟨List.getElem_mem hd, hd, rfl, fun j hj hsame => ?_⟩
  exact Nat.ne_of_lt hj ((a.nodup.getElem_inj_iff).1 hsame)

/-- The values of the characters that are written. -/
def values (a : BitAlphabet) (bytes : Bytes) : List Nat :=
  (pieces (a.width - 1) (bitsOfBytes bytes)).map fun piece => ofBits (fill a.width piece)

theorem encode_eq (bytes : Bytes) :
    a.encode bytes = (a.values bytes).map fun d => a.digits.getD d '=' := by
  rw [encode, values, List.map_map]
  rfl

theorem length_fill_of_mem {bits p : List Bool} (h : p ∈ pieces (a.width - 1) bits) :
    (fill a.width p).length = a.width := by
  have hwidth := a.width_pos
  have hp := length_le_of_mem_pieces h
  exact length_fill (by omega)

theorem lt_of_mem_values {bytes : Bytes} {d : Nat} (h : d ∈ a.values bytes) : d < 2 ^ a.width := by
  obtain ⟨p, hp, rfl⟩ := List.mem_map.1 h
  have hlt := ofBits_lt (fill a.width p)
  rwa [length_fill_of_mem hp] at hlt

theorem mem_digits_of_mem_encode {bytes : Bytes} {c : Char} (h : c ∈ a.encode bytes) :
    c ∈ a.digits := by
  rw [encode_eq] at h
  obtain ⟨d, hd, rfl⟩ := List.mem_map.1 h
  exact (digits_getD (lt_of_mem_values hd)).1

/-! ## Writing -/

/-- The bits of the characters are those of the bytes and less than a character of zeros. -/
theorem exists_bits_values (bytes : Bytes) :
    ∃ r < a.width, (a.values bytes).flatMap (bitsOf a.width) =
      bitsOfBytes bytes ++ List.replicate r false := by
  obtain ⟨r, hr, hfill⟩ := exists_flatMap_fill (a.width - 1) (bitsOfBytes bytes)
  rw [Nat.sub_add_cancel a.width_pos] at hr hfill
  refine ⟨r, hr, ?_⟩
  rw [← hfill, values, List.flatMap_map, List.flatMap, List.flatMap]
  congr 1
  apply List.map_congr_left
  intro p hp
  have hbits := bitsOf_ofBits (fill a.width p)
  rwa [length_fill_of_mem hp] at hbits

theorem length_encode (a : BitAlphabet) (bytes : Bytes) :
    ∃ r < a.width, (a.encode bytes).length * a.width = bytes.length * 8 + r := by
  obtain ⟨r, hr, hbits⟩ := exists_bits_values (a := a) bytes
  refine ⟨r, hr, ?_⟩
  have hlength := congrArg List.length hbits
  rwa [length_flatMap_bitsOf, List.length_append, List.length_replicate, length_bitsOfBytes,
    ← List.length_map (fun d => a.digits.getD d '='), ← encode_eq] at hlength

/-- What is written reads back. -/
theorem decode?_encode (a : BitAlphabet) (bytes : Bytes) :
    a.decode? (a.encode bytes) = some bytes := by
  have hvalues : (a.encode bytes).mapM (fun c => a.digits.idxOf? c) = some (a.values bytes) := by
    rw [encode_eq]
    exact mapM_map_eq_pure fun d hd => (digits_getD (lt_of_mem_values hd)).2
  obtain ⟨r, hr, hbits⟩ := exists_bits_values (a := a) bytes
  have hwidth := a.width_le
  have hlength : (bitsOfBytes bytes ++ List.replicate r false).length = bytes.length * 8 + r := by
    rw [List.length_append, List.length_replicate, length_bitsOfBytes]
  have hwhole : (bytes.length * 8 + r) / 8 * 8 = (bitsOfBytes bytes).length := by
    rw [length_bitsOfBytes]
    omega
  rw [decode?, hvalues]
  simp only [Option.bind_eq_bind, Option.bind_some, hbits, hlength, hwhole, List.drop_left,
    List.take_left, bytesOfBits_bitsOfBytes]
  rw [if_pos]
  refine ⟨by omega, ?_⟩
  rw [List.all_eq_true]
  intro b hb
  rw [List.eq_of_mem_replicate hb]
  rfl

/-! ## Lengths -/

theorem length_of_decode? {cs : List Char} {bytes : Bytes} (h : a.decode? cs = some bytes) :
    ∃ r < a.width, cs.length * a.width = bytes.length * 8 + r := by
  simp only [decode?, Option.bind_eq_bind, Option.bind_eq_some_iff] at h
  obtain ⟨values, hvalues, h⟩ := h
  split at h
  case isFalse => cases h
  case isTrue hrest =>
    cases h
    have hbits := length_flatMap_bitsOf a.width values
    rw [length_eq_of_mapM_eq_some hvalues] at hbits
    refine ⟨_, hrest.1, ?_⟩
    have hwhole : ((values.flatMap (bitsOf a.width)).take
        ((values.flatMap (bitsOf a.width)).length / 8 * 8)).length =
          (values.flatMap (bitsOf a.width)).length / 8 * 8 := by
      rw [List.length_take]
      omega
    have htaken := (bitsOfBytes_bytesOfBits _ hwhole).2
    rw [htaken, hbits]
    omega

/-- Only digits are read. -/
theorem mem_digits_of_decode? {cs : List Char} {bytes : Bytes} (h : a.decode? cs = some bytes)
    {c : Char} (hc : c ∈ cs) : c ∈ a.digits := by
  simp only [decode?, Option.bind_eq_bind, Option.bind_eq_some_iff] at h
  obtain ⟨values, hvalues, -⟩ := h
  obtain ⟨d, hd⟩ := isSome_of_mapM_eq_some hvalues hc
  obtain ⟨hlt, rfl, -⟩ := List.idxOf?_eq_some_iff.1 hd
  exact List.getElem_mem hlt

/-- What is written for the bytes of a text has the length of the text. -/
theorem length_encode_of_decode? {cs : List Char} {bytes : Bytes} (h : a.decode? cs = some bytes) :
    (a.encode bytes).length = cs.length := by
  obtain ⟨r, hr, hread⟩ := length_of_decode? h
  obtain ⟨s, hs, hwritten⟩ := length_encode a bytes
  have hlt : ∀ {m n k l : Nat}, k < a.width → m * a.width = bytes.length * 8 + k →
      n * a.width = bytes.length * 8 + l → m < n + 1 := by
    intro m n k l hk hm hn
    apply Nat.lt_of_mul_lt_mul_right (a := a.width)
    rw [Nat.succ_mul]
    omega
  have hle := hlt hs hwritten hread
  have hge := hlt hr hread hwritten
  omega

end BitAlphabet

end GossipDirectory
