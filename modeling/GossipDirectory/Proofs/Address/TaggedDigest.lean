import GossipDirectory.Address.TaggedDigest
import Mathlib.Algebra.Group.Nat.Defs

/-!
# Tagged digests read back

A number below 2^64 reads back from its groups of seven bits, whatever follows them. So a digest of
at most 64 bytes with a code below 2^64 reads back from its bytes, and no other is read.
-/

namespace GossipDirectory

namespace TaggedDigest

/-- A digest that is not too long, with a code of at most 64 bits. -/
structure WellFormed (d : TaggedDigest) : Prop where
  code_lt : d.code < UInt64.size
  digest_le : d.digest.length ≤ maxDigest

/-! ## Numbers -/

theorem two_pow_succ (shift : Nat) : 2 ^ (7 * (shift + 1)) = 128 * 2 ^ (7 * shift) := by
  rw [Nat.mul_succ, Nat.pow_add, Nat.mul_comm]

/-- Ten groups are enough. -/
theorem shift_le {n shift : Nat} (hpos : shift = 0 ∨ 0 < n)
    (h : n * 2 ^ (7 * shift) < UInt64.size) : shift ≤ 9 := by
  rcases hpos with rfl | hpos
  · exact Nat.zero_le 9
  refine Nat.le_of_not_lt fun hlong => ?_
  have hpow : 2 ^ (7 * 10) ≤ 2 ^ (7 * shift) := Nat.pow_le_pow_right (by decide) (by omega)
  have hle : 2 ^ (7 * 10) ≤ n * 2 ^ (7 * shift) :=
    Nat.le_trans hpow (Nat.le_mul_of_pos_left _ hpos)
  exact absurd (Nat.lt_of_le_of_lt hle h) (by decide)

/-- Groups of seven bits add up from any position on. A last group that is zero would not be
needed, so only the first group of a number may be zero. -/
theorem readVarint_varint {n shift value : Nat} (hpos : shift = 0 ∨ 0 < n)
    (h : n * 2 ^ (7 * shift) + value < UInt64.size) (rest : Bytes) :
    readVarint shift value (varint n ++ rest) = some (n * 2 ^ (7 * shift) + value, rest) := by
  induction n using varint.induct generalizing shift value with
  | case1 n hsmall =>
      have hbyte : (UInt8.ofNat n).toNat = n :=
        UInt8.toNat_ofNat_of_lt' (by change n < 256; omega)
      have hshift := shift_le hpos (Nat.lt_of_le_of_lt (Nat.le_add_right _ value) h)
      have hneeded : ¬ (UInt8.ofNat n = 0 ∧ shift ≠ 0) := by
        rintro ⟨hzero, hne⟩
        rw [hzero] at hbyte
        have hn : 0 < n := hpos.resolve_left hne
        exact Nat.ne_of_lt hn hbyte
      rw [varint, if_pos hsmall, List.singleton_append, readVarint, if_neg (by omega)]
      simp only [hbyte]
      rw [if_pos hsmall, if_neg hneeded, Nat.mod_eq_of_lt hsmall, Nat.add_comm value]
      exact congrArg (fun m => some (m, rest)) (Nat.mod_eq_of_lt h)
  | case2 n hlarge ih =>
      have hbyte : (UInt8.ofNat (128 + n % 128)).toNat = 128 + n % 128 :=
        UInt8.toNat_ofNat_of_lt' (by change 128 + n % 128 < 256; omega)
      have hshift := shift_le hpos (Nat.lt_of_le_of_lt (Nat.le_add_right _ value) h)
      have hsum : n / 128 * 2 ^ (7 * (shift + 1)) + (value + n % 128 * 2 ^ (7 * shift)) =
          n * 2 ^ (7 * shift) + value := by
        have hn : n * 2 ^ (7 * shift) =
            n / 128 * 128 * 2 ^ (7 * shift) + n % 128 * 2 ^ (7 * shift) := by
          rw [← Nat.add_mul, Nat.div_add_mod']
        rw [two_pow_succ, hn, ← Nat.mul_assoc]
        omega
      have hmod : (128 + n % 128) % 128 = n % 128 := by omega
      have hlast : ¬ 128 + n % 128 < 128 := by omega
      rw [varint, if_neg hlarge, List.cons_append, readVarint, if_neg (by omega)]
      simp only [hbyte, hmod]
      rw [if_neg hlast]
      have hread := @ih (shift + 1) (value + n % 128 * 2 ^ (7 * shift)) (.inr (by omega))
        (by rw [hsum]; exact h)
      rw [hsum] at hread
      exact hread

/-- A number reads back from its bytes, and what follows them is left. -/
theorem readVarint_zero_varint {n : Nat} (h : n < UInt64.size) (rest : Bytes) :
    readVarint 0 0 (varint n ++ rest) = some (n, rest) := by
  have hread := @readVarint_varint n 0 0 (.inl rfl) (by simpa using h) rest
  simpa using hread

theorem lt_of_readVarint {shift value n : Nat} {bytes rest : Bytes}
    (h : readVarint shift value bytes = some (n, rest)) : n < UInt64.size := by
  induction bytes generalizing shift value with
  | nil => cases h
  | cons b bytes ih =>
      rw [readVarint] at h
      split at h
      · cases h
      dsimp only at h
      split at h
      · split at h
        · cases h
        · cases h
          exact Nat.mod_lt _ (by decide)
      · exact ih h

/-! ## Digests -/

theorem ofBytes?_toBytes {d : TaggedDigest} (h : d.WellFormed) : ofBytes? d.toBytes = some d := by
  have hsize : d.digest.length < UInt64.size := Nat.lt_of_le_of_lt h.digest_le (by decide)
  rw [ofBytes?, toBytes, List.append_assoc, readVarint_zero_varint h.code_lt]
  change (readVarint 0 0 _).bind _ = _
  rw [readVarint_zero_varint hsize]
  exact if_pos ⟨h.digest_le, rfl⟩

/-- Only well-formed digests are read. -/
theorem wellFormed_of_ofBytes? {bytes : Bytes} {d : TaggedDigest} (h : ofBytes? bytes = some d) :
    d.WellFormed := by
  simp only [ofBytes?, Option.bind_eq_bind, Option.bind_eq_some_iff] at h
  obtain ⟨⟨code, rest⟩, hcode, ⟨size, digest⟩, -, h⟩ := h
  split at h
  · next hsize =>
      cases h
      exact ⟨lt_of_readVarint hcode, hsize.2 ▸ hsize.1⟩
  · cases h

end TaggedDigest

end GossipDirectory
