import GossipDirectory.Proofs.Collection.Outcome
import GossipDirectory.Proofs.Text.Bits
import GossipDirectory.Text.Base32

/-!
# Base 32 read back

Five bytes make eight characters without any padding, so whole groups of five bytes read back from
their upper case text one after the other. A text never reads to more bytes than its groups have
room for. Whole groups of five bytes and texts of whole groups of eight characters correspond to
each other.
-/

namespace GossipDirectory

namespace Base32

open Bits

/-! ## Characters -/

/-- Upper case characters read back and are no padding. -/
theorem digit?_toUpper {d : Nat} (h : d < 32) :
    digit? (digitChar d).toUpper = some d ∧ (digitChar d).toUpper ≠ '=' := by
  have all : ∀ d < 32, digit? (digitChar d).toUpper = some d ∧ (digitChar d).toUpper ≠ '=' := by
    decide
  exact all d h

/-- Five bytes are eight pieces of five bits. -/
theorem exists_bits {bytes : Bytes} (h : bytes.length = 5) :
    ∃ ps : List (List Bool), ps.length = 8 ∧ (∀ p ∈ ps, p.length = 5) ∧
      bitsOfBytes bytes = ps.flatten ∧
      ∀ rest, encode (bytes ++ rest) = (ps.map fun p => digitChar (ofBits p)) ++ encode rest := by
  have hlength : (bitsOfBytes bytes).length = 8 * 5 := by rw [length_bitsOfBytes, h]
  obtain ⟨ps, hcount, hps, hflatten⟩ := exists_flatten 8 hlength
  refine ⟨ps, hcount, hps, hflatten, fun rest => ?_⟩
  have hbits : bitsOfBytes (bytes ++ rest) = ps.flatten ++ bitsOfBytes rest := by
    rw [bitsOfBytes, List.flatMap_append, ← bitsOfBytes, ← bitsOfBytes, hflatten]
  rw [encode, hbits, pieces_flatten hps, List.map_append, encode]
  congr 1
  apply List.map_congr_left
  intro p hp
  rw [hps p hp, Nat.sub_self, List.replicate_zero, List.append_nil]

theorem dropWhile_padding {group : List Char} (h : ∀ c ∈ group, c ≠ '=') :
    (group.reverse.dropWhile (· = '=')).reverse = group := by
  have hhead : ∀ cs : List Char, (∀ c ∈ cs, c ≠ '=') → cs.dropWhile (· = '=') = cs := by
    intro cs hcs
    cases cs with
    | nil => rfl
    | cons c cs => exact List.dropWhile_cons_of_neg (by simpa using hcs c List.mem_cons_self)
  rw [hhead _ fun c hc => h c (List.mem_reverse.1 hc), List.reverse_reverse]

/-- Eight upper case characters that write five bytes read back. -/
theorem decodeGroup?_pieces {bytes : Bytes} {ps : List (List Bool)} (hcount : ps.length = 8)
    (hps : ∀ p ∈ ps, p.length = 5) (hbits : bitsOfBytes bytes = ps.flatten) :
    decodeGroup? (ps.map fun p => (digitChar (ofBits p)).toUpper) = some bytes := by
  have hlt : ∀ p ∈ ps, ofBits p < 32 := by
    intro p hp
    have h := ofBits_lt p
    rwa [hps p hp] at h
  have hdata : ((ps.map fun p => (digitChar (ofBits p)).toUpper).reverse.dropWhile
      (· = '=')).reverse = ps.map fun p => (digitChar (ofBits p)).toUpper := by
    apply dropWhile_padding
    intro c hc
    obtain ⟨p, hp, rfl⟩ := List.mem_map.1 hc
    exact (digit?_toUpper (hlt p hp)).2
  have hvalues : ((ps.map ofBits).map fun d => (digitChar d).toUpper).mapM digit? =
      some (ps.map ofBits) := by
    apply mapM_map_eq_pure
    intro d hd
    obtain ⟨p, hp, rfl⟩ := List.mem_map.1 hd
    exact (digit?_toUpper (hlt p hp)).1
  have hflat : (ps.map ofBits).flatMap (bitsOf 5) = bitsOfBytes bytes := by
    rw [hbits, List.flatMap_map, List.flatMap]
    congr 1
    rw [List.map_congr_left fun p hp => ?_, List.map_id]
    have h := bitsOf_ofBits p
    rwa [hps p hp] at h
  have hlength : (bitsOfBytes bytes).length / 8 * 8 = (bitsOfBytes bytes).length := by
    rw [length_bitsOfBytes, Nat.mul_div_cancel _ (by decide)]
  rw [List.map_map] at hvalues
  have hread : decodeGroup? (ps.map fun p => (digitChar (ofBits p)).toUpper) =
      (some (ps.map ofBits)).bind fun values =>
        let bits := values.flatMap (bitsOf 5)
        let whole := bits.length / 8 * 8
        if (bits.drop whole).all (! ·) then some (bytesOfBits (bits.take whole)) else none := by
    rw [decodeGroup?, hdata, List.length_map, hcount, ← hvalues]
    rfl
  rw [hread]
  simp only [Option.bind_some, hflat, hlength, List.drop_length, List.take_length,
    bytesOfBits_bitsOfBytes]
  rfl

theorem decode?_nil : decode? [] = some [] := by
  rw [decode?, pieces]
  rfl

/-- The first eight characters are read on their own. -/
theorem decode?_cons (c : Char) (cs : List Char) :
    decode? (c :: cs) =
      (decodeGroup? (c :: cs.take 7)).bind fun bytes =>
        (decode? (cs.drop 7)).map (bytes ++ ·) := by
  rw [decode?, decode?, pieces, List.mapM_cons]
  cases decodeGroup? (c :: cs.take 7) with
  | none => rfl
  | some bytes =>
      cases (pieces 7 (cs.drop 7)).mapM decodeGroup? with
      | none => rfl
      | some groups => rfl

theorem decode?_append {group : List Char} (h : group.length = 8) (cs : List Char) :
    decode? (group ++ cs) =
      (decodeGroup? group).bind fun bytes => (decode? cs).map (bytes ++ ·) := by
  cases group with
  | nil => cases h
  | cons c group =>
      have hlength : group.length = 7 := Nat.succ.inj h
      rw [List.cons_append, decode?_cons, ← hlength, List.take_left, List.drop_left]

/-- Whole groups of five bytes read back from their upper case text, which has eight characters
for each. -/
theorem decode?_upper (k : Nat) {bytes : Bytes} (h : bytes.length = k * 5) :
    decode? ((encode bytes).map Char.toUpper) = some bytes ∧
      (encode bytes).length = k * 8 ∧ ∀ c ∈ encode bytes, ∃ d < 32, c = digitChar d := by
  induction k generalizing bytes with
  | zero =>
      rw [Nat.zero_mul, List.length_eq_zero_iff] at h
      subst h
      have hnil : encode [] = [] := by
        rw [encode, bitsOfBytes, List.flatMap_nil, pieces]
        rfl
      rw [hnil]
      exact ⟨decode?_nil, (Nat.zero_mul 8).symm, fun c hc => absurd hc List.not_mem_nil⟩
  | succ k ih =>
      have hfirst : (bytes.take 5).length = 5 := by rw [List.length_take]; omega
      have hrest : (bytes.drop 5).length = k * 5 := by rw [List.length_drop]; omega
      obtain ⟨ps, hcount, hps, hbits, hencode⟩ := exists_bits hfirst
      obtain ⟨hread, hlength, hchars⟩ := ih hrest
      have hsplit := hencode (bytes.drop 5)
      rw [List.take_append_drop] at hsplit
      rw [hsplit]
      refine ⟨?_, ?_, ?_⟩
      · rw [List.map_append, List.map_map, decode?_append (by rw [List.length_map, hcount]), hread]
        change (decodeGroup? (ps.map fun p => (digitChar (ofBits p)).toUpper)).bind _ = _
        rw [decodeGroup?_pieces hcount hps hbits]
        exact congrArg some (List.take_append_drop 5 bytes)
      · rw [List.length_append, List.length_map, hcount, hlength]
        omega
      · intro c hc
        rcases List.mem_append.1 hc with hc | hc
        · obtain ⟨p, hp, rfl⟩ := List.mem_map.1 hc
          have hlt := ofBits_lt p
          rw [hps p hp] at hlt
          exact ⟨ofBits p, hlt, rfl⟩
        · exact hchars c hc

/-! ## How much is read -/

theorem decodeGroup?_eq_some {group : List Char} {bytes : Bytes}
    (h : decodeGroup? group = some bytes) : group.length = 8 ∧ bytes.length ≤ 5 := by
  rw [decodeGroup?] at h
  split at h
  · next hgroup =>
      simp only [Option.bind_eq_bind, Option.bind_eq_some_iff] at h
      obtain ⟨values, hvalues, h⟩ := h
      split at h
      · cases h
        have hcount := length_eq_of_mapM_eq_some hvalues
        have hbits := length_flatMap_bitsOf 5 values
        have hbytes := length_bytesOfBits_le ((values.flatMap (bitsOf 5)).take
          ((values.flatMap (bitsOf 5)).length / 8 * 8))
        rw [List.length_take] at hbytes
        have hdata : values.length ≤ 8 := by
          rw [hcount]
          have := hgroup.2
          simp only [List.mem_cons, List.not_mem_nil, or_false] at this
          omega
        exact ⟨hgroup.1, by omega⟩
      · cases h
  · cases h

/-- No more than five bytes are read from eight characters. -/
theorem length_decode?_le {cs : List Char} {bytes : Bytes} (h : decode? cs = some bytes) :
    bytes.length * 8 ≤ cs.length * 5 := by
  induction hlength : cs.length using Nat.strongRecOn generalizing cs bytes with
  | ind n ih =>
      cases cs with
      | nil =>
          rw [decode?_nil] at h
          cases h
          rw [List.length_nil, Nat.zero_mul]
          exact Nat.zero_le _
      | cons c cs =>
          rw [decode?_cons, Option.bind_eq_some_iff] at h
          obtain ⟨first, hfirst, h⟩ := h
          obtain ⟨rest, hrest, rfl⟩ := Option.map_eq_some_iff.1 h
          obtain ⟨hgroup, hroom⟩ := decodeGroup?_eq_some hfirst
          simp only [List.length_cons, List.length_take] at hgroup hlength
          have hdrop := ih (cs.drop 7).length (by rw [List.length_drop]; omega) hrest rfl
          rw [List.length_drop] at hdrop
          rw [List.length_append]
          omega

/-! ## Texts of whole groups -/

/-- The characters that texts are written in. -/
def IsDigit (c : Char) : Prop :=
  ('a' ≤ c ∧ c ≤ 'z') ∨ ('2' ≤ c ∧ c ≤ '7')

theorem isDigit_digitChar {d : Nat} (h : d < 32) : IsDigit (digitChar d) := by
  have all : ∀ d < 32, ('a' ≤ digitChar d ∧ digitChar d ≤ 'z') ∨
      ('2' ≤ digitChar d ∧ digitChar d ≤ '7') := by decide
  exact all d h

theorem exists_digitChar {c : Char} (h : IsDigit c) : ∃ d < 32, c = digitChar d := by
  rcases h with ⟨hlow, hhigh⟩ | ⟨hlow, hhigh⟩
  · have hlow : 97 ≤ c.toNat := UInt32.le_iff_toNat_le.1 hlow
    have hhigh : c.toNat ≤ 122 := UInt32.le_iff_toNat_le.1 hhigh
    refine ⟨c.toNat - 97, by omega, ?_⟩
    rw [digitChar, if_pos (by omega), Nat.add_sub_cancel' hlow, Char.ofNat_toNat]
  · have hlow : 50 ≤ c.toNat := UInt32.le_iff_toNat_le.1 hlow
    have hhigh : c.toNat ≤ 55 := UInt32.le_iff_toNat_le.1 hhigh
    refine ⟨c.toNat - 24, by omega, ?_⟩
    rw [digitChar, if_neg (by omega), Nat.add_sub_cancel' (by omega), Char.ofNat_toNat]

theorem digitChar_ofBits_bitsOf {d : Nat} (h : d < 32) :
    digitChar (ofBits (bitsOf 5 d)) = digitChar d :=
  congrArg digitChar ((ofBits_bitsOf 5 d).trans (Nat.mod_eq_of_lt h))

theorem exists_map_digitChar {text : List Char} (h : ∀ c ∈ text, IsDigit c) :
    ∃ values : List Nat, (∀ d ∈ values, d < 32) ∧ text = values.map digitChar := by
  induction text with
  | nil => exact ⟨[], nofun, rfl⟩
  | cons c text ih =>
      obtain ⟨d, hd, rfl⟩ := exists_digitChar (h c List.mem_cons_self)
      obtain ⟨values, hvalues, rfl⟩ := ih fun c hc => h c (List.mem_cons_of_mem _ hc)
      exact ⟨d :: values, List.forall_mem_cons.2 ⟨hd, hvalues⟩, rfl⟩

/-- Every text of whole groups of eight digits writes some bytes. -/
theorem exists_encode_eq (k : Nat) {text : List Char} (hlength : text.length = k * 8)
    (hdigits : ∀ c ∈ text, IsDigit c) :
    ∃ bytes, bytes.length = k * 5 ∧ encode bytes = text := by
  obtain ⟨values, hvalues, rfl⟩ := exists_map_digitChar hdigits
  rw [List.length_map] at hlength
  have hbits : (values.flatMap (bitsOf 5)).length = k * 5 * 8 := by
    rw [length_flatMap_bitsOf, hlength]
    omega
  obtain ⟨hread, hcount⟩ := bitsOfBytes_bytesOfBits (k * 5) hbits
  have hps : ∀ p ∈ values.map (bitsOf 5), p.length = 4 + 1 := by
    intro p hp
    obtain ⟨d, -, rfl⟩ := List.mem_map.1 hp
    exact length_bitsOf 5 d
  have hpieces := pieces_flatten hps []
  rw [List.append_nil, pieces, List.append_nil] at hpieces
  refine ⟨bytesOfBits (values.flatMap (bitsOf 5)), hcount, ?_⟩
  rw [encode, hread, List.flatMap, hpieces, List.map_map]
  apply List.map_congr_left
  intro d hd
  rw [Function.comp_apply, length_bitsOf, Nat.sub_self, List.replicate_zero, List.append_nil,
    digitChar_ofBits_bitsOf (hvalues d hd)]

/-- A text spells bytes if it reads to them, with whole groups of lower case digits. -/
structure Spells (text : List Char) (bytes : Bytes) : Prop where
  digits : ∀ c ∈ text, IsDigit c
  length_eq : text.length * 5 = bytes.length * 8
  reads : decode? (text.map Char.toUpper) = some bytes

/-- Whole groups of five bytes are spelled by what is written for them, and by no other text. -/
theorem spells_iff (k : Nat) {text : List Char} {bytes : Bytes} (h : bytes.length = k * 5) :
    Spells text bytes ↔ text = encode bytes := by
  obtain ⟨hread, hlength, hdigits⟩ := decode?_upper k h
  constructor
  · intro hspells
    have hwhole : text.length = k * 8 := by
      have := hspells.length_eq
      omega
    obtain ⟨written, hwritten, rfl⟩ := exists_encode_eq k hwhole hspells.digits
    have hsame := hspells.reads
    rw [(decode?_upper k hwritten).1] at hsame
    rw [Option.some.inj hsame]
  · rintro rfl
    refine ⟨fun c hc => ?_, by omega, hread⟩
    obtain ⟨d, hd, rfl⟩ := hdigits c hc
    exact isDigit_digitChar hd

end Base32

end GossipDirectory
