import GossipDirectory.Proofs.Collection.Outcome
import GossipDirectory.Proofs.Json.Grammar
import GossipDirectory.Proofs.Text.Encoding
import Mathlib.Data.List.DropRight

/-!
# Reading and skipping strings

However a string is spelled, reading it gives the text of its code units, and refuses it if they
have none. Skipping it ends at the closing quote in any case.
-/

namespace GossipDirectory

namespace Json

/-! ## White space -/

theorem spaces_nil : Spaces [] := by
  rintro b ⟨⟩

theorem skipSpace_append {ws : Bytes} (h : Spaces ws) (rest : Bytes) :
    skipSpace (ws ++ rest) = skipSpace rest := by
  induction ws with
  | nil => rfl
  | cons b ws ih =>
      rw [List.cons_append, skipSpace, List.dropWhile_cons_of_pos (h b List.mem_cons_self)]
      exact ih fun c hc => h c (List.mem_cons_of_mem b hc)

theorem skipSpace_cons {b : UInt8} (h : isSpace b = false) (rest : Bytes) :
    skipSpace (b :: rest) = b :: rest := by
  simp [skipSpace, List.dropWhile, h]

theorem skipSpace_skipSpace (bs : Bytes) : skipSpace (skipSpace bs) = skipSpace bs :=
  List.dropWhile_idempotent _ bs

/-! ## Code units -/

theorem chars?_cons_of_isSingle {n : Nat} (h : IsSingle n) (units : Units) :
    Units.chars? (n :: units) = units.chars?.map (Char.ofNat n :: ·) := by
  cases units with
  | nil => simp only [Units.chars?, if_pos h, Option.map_some]
  | cons m units => rw [Units.chars?, if_pos h]

theorem chars?_cons_of_isPair {n m : Nat} (h : IsPair n m) (units : Units) :
    Units.chars? (n :: m :: units) =
      units.chars?.map (Char.ofNat (0x10000 + (n - 0xD800) * 0x400 + (m - 0xDC00)) :: ·) := by
  have hn : ¬ IsSingle n := by
    obtain ⟨⟨hlow, hhigh⟩, -⟩ := h
    rw [IsSingle]
    omega
  rw [Units.chars?, if_neg hn, if_pos h]

/-- A surrogate without its other half stands for nothing. -/
theorem chars?_cons_of_lone {n : Nat} {units : Units} (hn : ¬ IsSingle n)
    (h : ∀ m ∈ units.head?, ¬ IsPair n m) : Units.chars? (n :: units) = none := by
  cases units with
  | nil => rw [Units.chars?, if_neg hn]
  | cons m units => rw [Units.chars?, if_neg hn, if_neg (h m rfl)]

theorem toNat_range (c : Char) :
    c.toNat < 0xD800 ∨ 0xE000 ≤ c.toNat ∧ c.toNat < 0x110000 := by
  rcases c.valid with hv | hv
  · exact .inl hv
  · exact .inr ⟨hv.1, hv.2⟩

/-- The units of a character stand for it, whatever follows them. -/
theorem chars?_unitsOf_append (c : Char) (units : Units) :
    Units.chars? (unitsOf c ++ units) = units.chars?.map (c :: ·) := by
  have hrange := toNat_range c
  by_cases hlow : c.toNat < 0x10000
  · have hsingle : IsSingle c.toNat := by
      rw [IsSingle]
      omega
    rw [unitsOf, if_pos hlow, List.singleton_append, chars?_cons_of_isSingle hsingle,
      Char.ofNat_toNat]
  · have hpair : IsPair (0xD800 + (c.toNat - 0x10000) / 0x400)
        (0xDC00 + (c.toNat - 0x10000) % 0x400) := by
      refine ⟨⟨?_, ?_⟩, ?_, ?_⟩ <;> omega
    have hsum : 0x10000 + (0xD800 + (c.toNat - 0x10000) / 0x400 - 0xD800) * 0x400 +
        (0xDC00 + (c.toNat - 0x10000) % 0x400 - 0xDC00) = c.toNat := by omega
    rw [unitsOf, if_neg hlow]
    change Units.chars? (_ :: _ :: units) = _
    rw [chars?_cons_of_isPair hpair, hsum, Char.ofNat_toNat]

theorem text?_ofText (s : String) : (Units.ofText s).text? = some s := by
  have hchars : ∀ cs : List Char, Units.chars? (cs.flatMap unitsOf) = some cs := by
    intro cs
    induction cs with
    | nil => rfl
    | cons c cs ih => rw [List.flatMap_cons, chars?_unitsOf_append, ih, Option.map_some]
  rw [Units.text?, Units.ofText, hchars, Option.map_some, String.ofList_toList]

/-- The first unit of a character is no second half of a pair. -/
theorem not_isPair_head_unitsOf (n : Nat) (c : Char) (units : Units) :
    ∀ m ∈ (unitsOf c ++ units).head?, ¬ IsPair n m := by
  have hrange := toNat_range c
  rw [unitsOf]
  split
  · rintro m ⟨⟩ ⟨-, hlow, hhigh⟩
    omega
  · rintro m ⟨⟩ ⟨-, hlow, -⟩
    omega

/-! ## Single bytes and escapes -/

/-- A byte that stands for itself inside a string. -/
def IsPlain (b : UInt8) : Prop :=
  b ≠ quote ∧ b ≠ backslash ∧ ¬ b < 32

theorem stringBody_quote (acc rest : Bytes) :
    stringBody acc (quote :: rest) = .ok (acc.reverse, rest) := by
  rw [stringBody]
  simp

theorem stringBody_plain {b : UInt8} (h : IsPlain b) (acc rest : Bytes) :
    stringBody acc (b :: rest) = stringBody (b :: acc) rest := by
  rw [stringBody, if_neg h.1, if_neg h.2.1, if_neg h.2.2]

theorem stringBody_plain_append {bs : Bytes} (h : ∀ b ∈ bs, IsPlain b) (acc rest : Bytes) :
    stringBody acc (bs ++ rest) = stringBody (bs.reverse ++ acc) rest := by
  induction bs generalizing acc with
  | nil => rfl
  | cons b bs ih =>
      rw [List.cons_append, stringBody_plain (h b List.mem_cons_self),
        ih (fun c hc => h c (List.mem_cons_of_mem b hc))]
      simp

theorem stringBody_escape {rest text : Bytes} {taken : Nat} (acc : Bytes)
    (h : escape? rest = some (text, taken)) :
    stringBody acc (backslash :: rest) = stringBody (text.reverse ++ acc) (rest.drop taken) := by
  rw [stringBody, if_neg (by decide), if_pos rfl, h]

/-- The letter after a backslash names a control character, a quote or a backslash. -/
theorem stringBody_letter {e b : UInt8} (hu : e ≠ lowerU) (h : escapedByte? e = some b)
    (acc rest : Bytes) :
    stringBody acc (backslash :: e :: rest) = stringBody (b :: acc) rest := by
  have he : escape? (e :: rest) = some ([b], 1) := by simp [escape?, hu, h]
  rw [stringBody_escape acc he]
  rfl

/-- A character of its own byte form is one that needs no escape. -/
theorem isPlain_of_mem_utf8EncodeChar {c : Char} (hq : c ≠ '"') (hb : c ≠ '\\')
    (hc : ¬ c.toNat < 32) {b : UInt8} (h : b ∈ String.utf8EncodeChar c) : IsPlain b := by
  by_cases hs : c.toNat < 128
  · rw [Utf8.utf8EncodeChar_of_lt hs, List.mem_singleton] at h
    subst h
    have hn : (UInt8.ofNat c.toNat).toNat = c.toNat := by
      rw [UInt8.toNat_ofNat']
      exact Nat.mod_eq_of_lt (by omega)
    refine ⟨?_, ?_, ?_⟩
    · intro h
      apply hq
      rw [h] at hn
      rw [← Char.ofNat_toNat c, ← hn]
      rfl
    · intro h
      apply hb
      rw [h] at hn
      rw [← Char.ofNat_toNat c, ← hn]
      rfl
    · rw [UInt8.lt_iff_toNat_lt, hn]
      exact hc
  · have hl := Utf8.le_of_mem_utf8EncodeChar (by omega : 128 ≤ c.toNat) h
    refine ⟨?_, ?_, ?_⟩
    · rintro rfl
      exact absurd hl (by decide)
    · rintro rfl
      exact absurd hl (by decide)
    · rw [UInt8.lt_iff_toNat_lt]
      change ¬ b.toNat < 32
      omega

theorem hexWord?_append {digits : Bytes} (h : digits.length = 4) (rest : Bytes) :
    hexWord? (digits ++ rest) = hexWord? digits := by
  obtain ⟨a, b, c, d, rfl⟩ : ∃ a b c d, digits = [a, b, c, d] := by
    match digits, h with
    | [a, b, c, d], _ => exact ⟨a, b, c, d, rfl⟩
  rfl

theorem escapedByte?_of_mem {c : Char} {e : UInt8} (h : (c, e) ∈ letterEscapes) :
    e ≠ lowerU ∧ ∃ b, escapedByte? e = some b ∧ String.utf8EncodeChar c = [b] := by
  simp only [letterEscapes, List.mem_cons, Prod.mk.injEq, List.not_mem_nil, or_false] at h
  rcases h with ⟨rfl, rfl⟩ | ⟨rfl, rfl⟩ | ⟨rfl, rfl⟩ | ⟨rfl, rfl⟩ | ⟨rfl, rfl⟩ | ⟨rfl, rfl⟩ |
    ⟨rfl, rfl⟩ | ⟨rfl, rfl⟩ <;> exact ⟨by decide, _, rfl, by decide⟩

/-! ## Reading strings -/

section Escapes

variable {n m : Nat} {digits : Bytes}

theorem escape?_single (hlength : digits.length = 4) (hn : hexWord? digits = some n)
    (h : IsSingle n) (rest : Bytes) :
    escape? (lowerU :: (digits ++ rest)) = some (charBytes n, 5) := by
  have hsingle : n < 0xD800 ∨ 0xE000 ≤ n := h
  simp [escape?, hexEscape?, hexWord?_append hlength, hn, hsingle]

theorem escape?_pair {low : Bytes} (hlength : digits.length = 4) (hn : hexWord? digits = some n)
    (hlow : low.length = 4) (hm : hexWord? low = some m) (h : IsPair n m) (rest : Bytes) :
    escape? (lowerU :: (digits ++ backslash :: lowerU :: (low ++ rest))) =
      some (charBytes (0x10000 + (n - 0xD800) * 0x400 + (m - 0xDC00)), 11) := by
  obtain ⟨hhigh, hlowRange⟩ := h
  have hsurrogate : ¬ (n < 0xD800 ∨ 0xE000 ≤ n) := by omega
  have hfirst : ¬ 0xDC00 ≤ n := by omega
  have hdrop : (digits ++ backslash :: lowerU :: (low ++ rest)).drop 4 =
      backslash :: lowerU :: (low ++ rest) := by
    rw [← hlength, List.drop_left]
  rw [escape?, if_pos rfl, hexEscape?, hexWord?_append hlength, hn]
  simp only [Option.bind_eq_bind, Option.bind_some]
  rw [if_neg hsurrogate, if_neg hfirst, hdrop]
  simp only [and_self, if_true, hexWord?_append hlow, hm, Option.bind_some]
  rw [if_pos hlowRange, Option.map_some]

/-- The escape of a surrogate is refused unless that of its other half follows. -/
theorem escape?_lone (hlength : digits.length = 4) (hn : hexWord? digits = some n)
    (hsingle : ¬ IsSingle n) {rest : Bytes}
    (h : ∀ m low, rest = backslash :: lowerU :: low → hexWord? low = some m → ¬ IsPair n m) :
    escape? (lowerU :: (digits ++ rest)) = none := by
  have hdrop : (digits ++ rest).drop 4 = rest := by rw [← hlength, List.drop_left]
  have hsurrogate : ¬ (n < 0xD800 ∨ 0xE000 ≤ n) := hsingle
  rw [escape?, if_pos rfl, hexEscape?, hexWord?_append hlength, hn]
  simp only [Option.bind_eq_bind, Option.bind_some]
  rw [if_neg hsurrogate, hdrop, Option.map_eq_none_iff]
  by_cases hsecond : 0xDC00 ≤ n
  · rw [if_pos hsecond]
  rw [if_neg hsecond]
  split
  · next s u low =>
      split
      · next hescape =>
          obtain ⟨rfl, rfl⟩ := hescape
          cases hm : hexWord? low with
          | none => rfl
          | some m =>
              have hpair := h m low rfl hm
              have hlow : ¬ (0xDC00 ≤ m ∧ m < 0xE000) := by
                intro hlow
                exact hpair ⟨by rw [IsSingle] at hsingle; omega, hlow⟩
              rw [Option.bind_some, if_neg hlow]
      · rfl
  · rfl

theorem stringBody_single (hlength : digits.length = 4) (hn : hexWord? digits = some n)
    (h : IsSingle n) (acc rest : Bytes) :
    stringBody acc (backslash :: lowerU :: (digits ++ rest)) =
      stringBody ((charBytes n).reverse ++ acc) rest := by
  rw [stringBody_escape acc (escape?_single hlength hn h rest), List.drop_succ_cons, ← hlength,
    List.drop_left]

theorem stringBody_pair {low : Bytes} (hlength : digits.length = 4)
    (hn : hexWord? digits = some n) (hlow : low.length = 4) (hm : hexWord? low = some m)
    (h : IsPair n m) (acc rest : Bytes) :
    stringBody acc (backslash :: lowerU :: (digits ++ backslash :: lowerU :: (low ++ rest))) =
      stringBody ((charBytes (0x10000 + (n - 0xD800) * 0x400 + (m - 0xDC00))).reverse ++ acc)
        rest := by
  have hten : 10 = (digits ++ backslash :: lowerU :: low).length := by simp [hlength, hlow]
  have htext : digits ++ backslash :: lowerU :: (low ++ rest) =
      digits ++ backslash :: lowerU :: low ++ rest := by simp
  rw [stringBody_escape acc (escape?_pair hlength hn hlow hm h rest), List.drop_succ_cons, htext,
    hten, List.drop_left]

end Escapes

/-- An escape of four digits at the front gives the first code unit. -/
theorem head?_of_escape {units : Units} {bs rest low : Bytes} {m : Nat} (h : UnitsText units bs)
    (heq : bs ++ quote :: rest = backslash :: lowerU :: low) (hm : hexWord? low = some m) :
    units.head? = some m := by
  cases h with
  | nil => cases heq
  | @plain c units bs hquote hbackslash hcontrol =>
      obtain ⟨b, cs, hb⟩ := List.exists_cons_of_ne_nil (String.utf8EncodeChar_ne_nil (c := c))
      have hplain := isPlain_of_mem_utf8EncodeChar hquote hbackslash (by omega)
        (hb ▸ List.mem_cons_self : b ∈ String.utf8EncodeChar c)
      rw [hb] at heq
      exact absurd (List.cons.inj heq).1 hplain.2.1
  | letter hletter =>
      have he := (escapedByte?_of_mem hletter).1
      exact absurd (List.cons.inj (List.cons.inj heq).2).1 he
  | @escape n digits units bs hlength hn =>
      have hlow : digits ++ bs ++ quote :: rest = low := (List.cons.inj (List.cons.inj heq).2).2
      rw [← hlow, List.append_assoc, hexWord?_append hlength, hn] at hm
      exact hm

/-- However code units are spelled, reading them up to the closing quote gives the bytes of their
characters. -/
theorem stringBody_unitsText {units : Units} {bs : Bytes} (h : UnitsText units bs)
    (acc rest : Bytes) :
    (stringBody acc (bs ++ quote :: rest)).toOption = units.chars?.map fun cs =>
      (acc.reverse ++ cs.flatMap String.utf8EncodeChar, rest) := by
  -- two escapes are read at once where they make a pair, so the induction is on the length
  induction hk : bs.length using Nat.strongRecOn generalizing units bs acc with
  | ind k ih =>
      have hchar : ∀ {c : Char} {units : Units} {tail : Bytes} {result},
          UnitsText units tail → tail.length < k →
          result = stringBody ((String.utf8EncodeChar c).reverse ++ acc) (tail ++ quote :: rest) →
          result.toOption = (units.chars?.map (c :: ·)).map fun cs =>
            (acc.reverse ++ cs.flatMap String.utf8EncodeChar, rest) := by
        intro c units tail result h hlt hread
        rw [hread, ih _ hlt h _ rfl, Option.map_map]
        congr 1
        funext cs
        simp
      cases h with
      | nil => simp [stringBody_quote, Units.chars?, Except.toOption]
      | @plain c units tail hquote hbackslash hcontrol h =>
          have hpos := List.length_pos_iff.2 (String.utf8EncodeChar_ne_nil (c := c))
          rw [List.length_append] at hk
          rw [chars?_unitsOf_append, List.append_assoc]
          apply hchar h (by omega)
          apply stringBody_plain_append
          exact fun b hb => isPlain_of_mem_utf8EncodeChar hquote hbackslash (by omega) hb
      | @letter c e units tail hletter h =>
          obtain ⟨hu, b, hb, hc⟩ := escapedByte?_of_mem hletter
          simp only [List.length_cons] at hk
          rw [chars?_unitsOf_append]
          apply hchar h (by omega)
          rw [hc]
          exact stringBody_letter hu hb acc _
      | @escape n digits units tail hlength hn h =>
          simp only [List.length_cons, List.length_append] at hk
          simp only [List.cons_append, List.append_assoc]
          by_cases hsingle : IsSingle n
          · rw [chars?_cons_of_isSingle hsingle]
            exact hchar h (by omega) (stringBody_single hlength hn hsingle acc _)
          by_cases hpair : ∃ m ∈ units.head?, IsPair n m
          · obtain ⟨m, hm, hpair⟩ := hpair
            cases h with
            | nil => cases hm
            | plain => exact absurd hpair (not_isPair_head_unitsOf n _ _ m hm)
            | letter => exact absurd hpair (not_isPair_head_unitsOf n _ _ m hm)
            | @escape _ low units tail hlow hm' h =>
                cases hm
                simp only [List.length_cons, List.length_append] at hk
                simp only [List.cons_append, List.append_assoc]
                rw [chars?_cons_of_isPair hpair]
                exact hchar h (by omega) (stringBody_pair hlength hn hlow hm' hpair acc _)
          · have hescape : escape? (lowerU :: (digits ++ (tail ++ quote :: rest))) = none :=
              escape?_lone hlength hn hsingle
                fun m low heq hlow hp => hpair ⟨m, head?_of_escape h heq hlow, hp⟩
            rw [chars?_cons_of_lone hsingle fun m hm hp => hpair ⟨m, hm, hp⟩, stringBody,
              if_neg (by decide), if_pos rfl, hescape]
            rfl

/-- However a string is spelled, it is read as the text of its code units, after its opening
quote. -/
theorem string_unitsText {units : Units} {bs : Bytes} (h : UnitsText units bs) (rest : Bytes) :
    (string (bs ++ quote :: rest)).toOption = units.text?.map (·, rest) := by
  rw [string, toOption_bind, stringBody_unitsText h, Units.text?, Option.map_map]
  cases units.chars? with
  | none => rfl
  | some cs =>
      simp only [Option.map_some, Option.bind_some, List.reverse_nil, List.nil_append,
        Function.comp]
      rw [← Utf8.encode_ofList, Utf8.decode?_encode]
      rfl

/-! ## Skipping strings -/

theorem skipString_quote (rest : Bytes) : skipString (quote :: rest) = .ok rest := by
  rw [skipString]
  simp

theorem skipString_plain_append {bs : Bytes} (h : ∀ b ∈ bs, IsPlain b) (rest : Bytes) :
    skipString (bs ++ rest) = skipString rest := by
  induction bs with
  | nil => rfl
  | cons b bs ih =>
      obtain ⟨hquote, hbackslash, hcontrol⟩ := h b List.mem_cons_self
      rw [List.cons_append, skipString, if_neg hquote, if_neg hbackslash, if_neg hcontrol]
      exact ih fun c hc => h c (List.mem_cons_of_mem b hc)

theorem skipString_escape {rest : Bytes} {taken : Nat} (h : escapeLength? rest = some taken) :
    skipString (backslash :: rest) = skipString (rest.drop taken) := by
  rw [skipString, if_neg (by decide), if_pos rfl, h]

/-- However a string is spelled and whatever its code units are, it is skipped up to its end, after
its opening quote. -/
theorem skipString_unitsText {units : Units} {bs : Bytes} (h : UnitsText units bs)
    (rest : Bytes) : skipString (bs ++ quote :: rest) = .ok rest := by
  induction h with
  | nil => exact skipString_quote rest
  | plain hquote hbackslash hcontrol _ ih =>
      rw [List.append_assoc, skipString_plain_append, ih]
      exact fun b hb => isPlain_of_mem_utf8EncodeChar hquote hbackslash (by omega) hb
  | @letter c e units tail hletter _ ih =>
      obtain ⟨hu, b, hb, -⟩ := escapedByte?_of_mem hletter
      have he : escapeLength? (e :: (tail ++ quote :: rest)) = some 1 := by
        rw [escapeLength?, if_neg hu, hb]
        rfl
      exact (skipString_escape he).trans ih
  | @escape n digits units tail hlength hn _ ih =>
      have he : escapeLength? (lowerU :: (digits ++ (tail ++ quote :: rest))) = some 5 := by
        rw [escapeLength?, if_pos rfl, hexWord?_append hlength, hn]
        rfl
      rw [List.cons_append, List.cons_append, List.append_assoc, skipString_escape he, ← ih]
      simp [← hlength]

end Json

end GossipDirectory
