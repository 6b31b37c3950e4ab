import GossipDirectory.Text.Utf8

/-!
# Characters and their bytes

The bytes of a text are the bytes of its characters, one after the other. A byte below 128 is the
only byte of its character, so the bytes that structure a document never occur inside others.
-/

namespace GossipDirectory

namespace Utf8

theorem encode_ofList (cs : List Char) :
    encode (String.ofList cs) = cs.flatMap String.utf8EncodeChar := by
  simp only [encode, String.toByteArray_ofList, List.utf8Encode]
  simp

theorem encode_eq_flatMap (s : String) : encode s = s.toList.flatMap String.utf8EncodeChar := by
  rw [← encode_ofList, String.ofList_toList]

/-- A byte string that encodes a text is the encoding of that text. -/
theorem encode_of_decode? {bytes : Bytes} {s : String} (h : decode? bytes = some s) :
    encode s = bytes := by
  unfold decode? String.fromUTF8? at h
  split at h
  case isTrue =>
    cases h
    rfl
  case isFalse => cases h

/-- A character of the ASCII range is one byte. -/
theorem utf8EncodeChar_of_lt {c : Char} (h : c.toNat < 128) :
    String.utf8EncodeChar c = [UInt8.ofNat c.toNat] := by
  have hv : c.val.toNat ≤ 0x7f := by
    have : c.toNat = c.val.toNat := rfl
    omega
  simp only [String.utf8EncodeChar]
  rw [if_pos hv]
  rfl

/-- Every byte of a character outside the ASCII range has its highest bit set. -/
theorem le_of_mem_utf8EncodeChar {c : Char} (h : 128 ≤ c.toNat) {b : UInt8}
    (hb : b ∈ String.utf8EncodeChar c) : 128 ≤ b.toNat := by
  have hv : ¬ c.val.toNat ≤ 0x7f := by
    have : c.toNat = c.val.toNat := rfl
    omega
  simp only [String.utf8EncodeChar] at hb
  rw [if_neg hv] at hb
  split at hb
  · simp only [List.mem_cons, List.not_mem_nil, or_false] at hb
    rcases hb with rfl | rfl <;> simp only [UInt8.toNat_ofNat'] <;> omega
  · split at hb
    · simp only [List.mem_cons, List.not_mem_nil, or_false] at hb
      rcases hb with rfl | rfl | rfl <;> simp only [UInt8.toNat_ofNat'] <;> omega
    · simp only [List.mem_cons, List.not_mem_nil, or_false] at hb
      rcases hb with rfl | rfl | rfl | rfl <;> simp only [UInt8.toNat_ofNat'] <;> omega

theorem utf8ByteSize_cons (c : Char) (cs : List Char) :
    (String.ofList (c :: cs)).utf8ByteSize = c.utf8Size + (String.ofList cs).utf8ByteSize := by
  have hsize : ∀ s : String, s.utf8ByteSize = (encode s).length := fun _ => rfl
  rw [hsize, hsize, encode_ofList, encode_ofList, List.flatMap_cons, List.length_append,
    String.length_utf8EncodeChar]

/-- A text has at least as many bytes as characters. -/
theorem length_le_utf8ByteSize (cs : List Char) :
    cs.length ≤ (String.ofList cs).utf8ByteSize := by
  induction cs with
  | nil => exact Nat.zero_le _
  | cons c cs ih =>
      rw [utf8ByteSize_cons, List.length_cons]
      have := c.utf8Size_pos
      omega

/-- A text in the ASCII range has as many bytes as characters. -/
theorem utf8ByteSize_eq_length {cs : List Char} (h : ∀ c ∈ cs, c.toNat < 128) :
    (String.ofList cs).utf8ByteSize = cs.length := by
  induction cs with
  | nil => rfl
  | cons c cs ih =>
      have hc : c.utf8Size = 1 := by
        rw [← String.length_utf8EncodeChar, utf8EncodeChar_of_lt (h c List.mem_cons_self)]
        rfl
      rw [utf8ByteSize_cons, hc, ih fun d hd => h d (List.mem_cons_of_mem c hd), List.length_cons,
        Nat.add_comm]

/-! ## Bytes of a text -/

/-- The bytes of some text. -/
def IsText (bytes : Bytes) : Prop :=
  ∃ s, encode s = bytes

theorem isText_encode (s : String) : IsText (encode s) :=
  ⟨s, rfl⟩

theorem isText_chars (cs : List Char) : IsText (cs.flatMap String.utf8EncodeChar) :=
  ⟨String.ofList cs, encode_ofList cs⟩

theorem IsText.append {bytes more : Bytes} (h : IsText bytes) (h' : IsText more) :
    IsText (bytes ++ more) := by
  obtain ⟨s, rfl⟩ := h
  obtain ⟨t, rfl⟩ := h'
  exact ⟨s ++ t, by simp [encode_eq_flatMap]⟩

theorem IsText.flatten {pieces : List Bytes} (h : ∀ p ∈ pieces, IsText p) :
    IsText pieces.flatten := by
  induction pieces with
  | nil => exact isText_chars []
  | cons p rest ih =>
      exact (h p List.mem_cons_self).append (ih fun q hq => h q (List.mem_cons_of_mem _ hq))

/-- Every byte below 128 is a character. -/
theorem isText_of_lt {bytes : Bytes} (h : ∀ b ∈ bytes, b.toNat < 128) : IsText bytes := by
  induction bytes with
  | nil => exact isText_chars []
  | cons b rest ih =>
      have hb := h b List.mem_cons_self
      have hvalid : b.toNat.isValidChar := Or.inl (by omega)
      have hnat : (Char.ofNat b.toNat).toNat = b.toNat := by
        rw [Char.ofNat, dif_pos hvalid]
        rfl
      have hfirst : IsText [b] := by
        refine ⟨String.ofList [Char.ofNat b.toNat], ?_⟩
        rw [encode_ofList, List.flatMap_singleton, utf8EncodeChar_of_lt (by rw [hnat]; exact hb),
          hnat, UInt8.ofNat_toNat]
      exact hfirst.append (ih fun c hc => h c (List.mem_cons_of_mem _ hc))

/-- Given bytes are checked one after another. -/
theorem isText_of_all {bytes : Bytes} (h : bytes.all (·.toNat < 128)) : IsText bytes :=
  isText_of_lt (by simpa using h)

theorem IsText.decode? {bytes : Bytes} (h : IsText bytes) :
    ∃ s, decode? bytes = some s ∧ encode s = bytes := by
  obtain ⟨s, rfl⟩ := h
  exact ⟨s, decode?_encode s, rfl⟩

end Utf8

end GossipDirectory
