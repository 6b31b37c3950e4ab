import GossipDirectory.Proofs.Text.Encoding
import GossipDirectory.Text.Percent

/-!
# Path segments read back

A byte that may not stand for itself is written as an escape, and every other byte is no percent
sign. So decoding takes the written bytes apart exactly where they were put together, and a slash
is never written.
-/

namespace GossipDirectory

namespace Percent

/-- A byte as characters of a written segment. -/
def byteChars (b : UInt8) : List Char :=
  if isReserved b then ['%', digitChar (b.toNat / 16), digitChar (b.toNat % 16)]
  else [Char.ofNat b.toNat]

theorem encodeText_eq (s : String) :
    encodeText s = String.ofList ((Utf8.encode s).flatMap byteChars) :=
  rfl

theorem digit_facts {d : Nat} (h : d < 16) :
    ∃ b, String.utf8EncodeChar (digitChar d) = [b] ∧ Hex.digit? b = some d ∧
      digitChar d ≠ '/' := by
  have all : ∀ d < 16, String.utf8EncodeChar (digitChar d) = [UInt8.ofNat (digitChar d).toNat] ∧
      Hex.digit? (UInt8.ofNat (digitChar d).toNat) = some d ∧ digitChar d ≠ '/' := by decide
  exact ⟨_, all d h⟩

theorem plain_facts {b : UInt8} (h : isReserved b = false) :
    String.utf8EncodeChar (Char.ofNat b.toNat) = [b] ∧ b ≠ 37 ∧ Char.ofNat b.toNat ≠ '/' := by
  simp only [isReserved, Bool.or_eq_false_iff, decide_eq_false_iff_not, UInt8.not_lt] at h
  obtain ⟨⟨-, hhigh⟩, hlist⟩ := h
  have hlt : b.toNat < 127 := by
    rw [ge_iff_le, UInt8.le_iff_toNat_le] at hhigh
    exact Nat.lt_of_not_le hhigh
  have hmem : ∀ c : UInt8, c ∈ [32, 34, 35, 37, 47, 60, 62, 63, 96, 123, 125] → b ≠ c := by
    rintro c hc rfl
    rw [List.contains_iff_mem.2 hc] at hlist
    cases hlist
  have hchar : (Char.ofNat b.toNat).toNat = b.toNat := by
    have all : ∀ n < 127, (Char.ofNat n).toNat = n := by decide
    exact all _ hlt
  refine ⟨?_, hmem 37 (by decide), ?_⟩
  · rw [Utf8.utf8EncodeChar_of_lt (by omega), hchar, UInt8.ofNat_toNat]
  · intro hslash
    rw [hslash] at hchar
    exact hmem 47 (by decide) (UInt8.toNat_inj.1 hchar.symm)

theorem decode_cons {b : UInt8} (h : b ≠ 37) (rest : Bytes) :
    decode (b :: rest) = b :: decode rest := by
  rw [decode.eq_def]
  split
  · next heq => exact absurd (List.cons.inj heq).1 h
  · next heq =>
      obtain ⟨rfl, rfl⟩ := List.cons.inj heq
      rfl
  · next heq => cases heq

theorem decode_escape {hi lo : UInt8} {h l : Nat} (hh : Hex.digit? hi = some h)
    (hl : Hex.digit? lo = some l) (rest : Bytes) :
    decode (37 :: hi :: lo :: rest) = UInt8.ofNat (16 * h + l) :: decode rest := by
  rw [decode, hh, hl]

/-- What is written for a byte is decoded to it. -/
theorem decode_byteChars (b : UInt8) (rest : Bytes) :
    decode ((byteChars b).flatMap String.utf8EncodeChar ++ rest) = b :: decode rest := by
  have hsize := b.toNat_lt
  rw [byteChars]
  split
  · obtain ⟨hi, hhi, hh, -⟩ := digit_facts (d := b.toNat / 16) (by omega)
    obtain ⟨lo, hlo, hl, -⟩ := digit_facts (d := b.toNat % 16) (by omega)
    have hsplit : ['%', digitChar (b.toNat / 16), digitChar (b.toNat % 16)].flatMap
        String.utf8EncodeChar ++ rest = 37 :: hi :: lo :: rest := by
      simp only [List.flatMap_cons, List.flatMap_nil, hhi, hlo]
      rfl
    have hvalue : 16 * (b.toNat / 16) + b.toNat % 16 = b.toNat := by omega
    rw [hsplit, decode_escape hh hl, hvalue, UInt8.ofNat_toNat]
  · next hplain =>
      obtain ⟨hbytes, hpercent, -⟩ := plain_facts (Bool.not_eq_true _ ▸ hplain)
      rw [List.flatMap_cons, List.flatMap_nil, List.append_nil, hbytes, List.singleton_append,
        decode_cons hpercent]

/-- A written segment stands for the text. -/
theorem decodeText?_encodeText (s : String) : decodeText? (encodeText s) = some s := by
  have hdecode : ∀ bytes : Bytes,
      decode ((bytes.flatMap byteChars).flatMap String.utf8EncodeChar) = bytes := by
    intro bytes
    induction bytes with
    | nil => rw [List.flatMap_nil, List.flatMap_nil, decode]
    | cons b bytes ih => rw [List.flatMap_cons, List.flatMap_append, decode_byteChars, ih]
  rw [decodeText?, encodeText_eq, Utf8.encode_ofList, hdecode, Utf8.decode?_encode]

/-- No slash is written. -/
theorem ne_slash_of_mem_encodeText {s : String} {c : Char} (h : c ∈ (encodeText s).toList) :
    c ≠ '/' := by
  rw [encodeText_eq, String.toList_ofList] at h
  obtain ⟨b, -, h⟩ := List.mem_flatMap.1 h
  have hsize := b.toNat_lt
  rw [byteChars] at h
  split at h
  · simp only [List.mem_cons, List.not_mem_nil, or_false] at h
    rcases h with rfl | rfl | rfl
    · decide
    · exact (digit_facts (by omega)).choose_spec.2.2
    · exact (digit_facts (by omega)).choose_spec.2.2
  · next hplain =>
      rw [List.mem_singleton.1 h]
      exact (plain_facts (Bool.not_eq_true _ ▸ hplain)).2.2

end Percent

end GossipDirectory
