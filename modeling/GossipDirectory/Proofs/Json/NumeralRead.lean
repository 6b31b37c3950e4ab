import GossipDirectory.Proofs.Json.StringRead

/-!
# Reading and skipping numerals

A numeral is read as the number that its parts make, and refused if that is out of range. It is
skipped whatever its size. Both need that what follows cannot extend it.
-/

namespace GossipDirectory

namespace Json

/-- Nothing here can extend a numeral. -/
def EndsNumber (rest : Bytes) : Prop :=
  ∀ b ∈ rest.head?, digit? b = none ∧ b ≠ point ∧ b ≠ lowerE ∧ b ≠ upperE

theorem endsNumber_cons {b : UInt8} (h : digit? b = none ∧ b ≠ point ∧ b ≠ lowerE ∧ b ≠ upperE)
    (rest : Bytes) : EndsNumber (b :: rest) := by
  rintro c ⟨⟩
  exact h

theorem EndsNumber.append {ws rest : Bytes} (hws : Spaces ws) (h : EndsNumber rest) :
    EndsNumber (ws ++ rest) := by
  cases ws with
  | nil => exact h
  | cons b ws =>
      rintro c ⟨⟩
      have hb := hws b List.mem_cons_self
      simp only [isSpace, Bool.or_eq_true, decide_eq_true_eq] at hb
      rcases hb with ((rfl | rfl) | rfl) | rfl <;> decide

/-- No digit follows. -/
def NoDigit (bs : Bytes) : Prop :=
  ∀ b ∈ bs.head?, digit? b = none

theorem EndsNumber.noDigit {rest : Bytes} (h : EndsNumber rest) : NoDigit rest :=
  fun b hb => (h b hb).1

/-! ## Digits -/

theorem digit?_fin : ∀ d : Fin 10, digit? (digitByte d) = some d.val := by
  decide

theorem digitByte_ne_zero : ∀ {d : Fin 10}, d ≠ 0 → digitByte d ≠ zero := by
  decide

theorem digitByte_ne_plus : ∀ d : Fin 10, digitByte d ≠ plus := by
  decide

theorem digitByte_ne_minus : ∀ d : Fin 10, digitByte d ≠ minus := by
  decide

namespace Digits

theorem bytes_cons (d : Fin 10) (ds : Digits) : bytes (d :: ds) = digitByte d :: ds.bytes :=
  rfl

theorem le_valueFrom (n : Nat) (ds : Digits) : n ≤ ds.valueFrom n := by
  induction ds generalizing n with
  | nil => exact Nat.le_refl n
  | cons d ds ih =>
      have := ih (n * 10 + d)
      change n ≤ valueFrom (n * 10 + d) ds
      omega

theorem length_extend_le (n : Nat) (ds : Digits) : (ds.extend n).2.length ≤ ds.length := by
  induction ds generalizing n with
  | nil => exact Nat.le_refl 0
  | cons d ds ih =>
      rw [extend]
      split
      · exact Nat.le_succ_of_le (ih _)
      · exact Nat.le_refl _

/-- All digits fit if the number that they make does. -/
theorem extend_of_lt {n : Nat} {ds : Digits} (h : ds.valueFrom n < UInt64.size) :
    ds.extend n = (ds.valueFrom n, []) := by
  induction ds generalizing n with
  | nil => rfl
  | cons d ds ih =>
      change valueFrom (n * 10 + d) ds < UInt64.size at h
      rw [extend, if_pos (Nat.lt_of_le_of_lt (le_valueFrom _ ds) h)]
      exact ih h

/-- Some digits do not fit if the number that they make does not. -/
theorem extend_of_le {n : Nat} {ds : Digits} (hn : n < UInt64.size)
    (h : UInt64.size ≤ ds.valueFrom n) : (ds.extend n).2 ≠ [] := by
  induction ds generalizing n with
  | nil => exact absurd hn (Nat.not_lt.2 h)
  | cons d ds ih =>
      rw [extend]
      split
      · next hfits => exact ih hfits h
      · exact List.cons_ne_nil _ _

end Digits

section Reading

variable {rest : Bytes}

theorem significandDigits_bytes (hr : NoDigit rest) (ds : Digits) (v c : Nat) :
    significandDigits v c (ds.bytes ++ rest) = ((ds.extend v).1,
      c + (ds.length - (ds.extend v).2.length), (ds.extend v).2.bytes ++ rest) := by
  induction ds generalizing v c with
  | nil =>
      cases rest with
      | nil => rfl
      | cons b rest =>
          change significandDigits v c (b :: rest) = _
          rw [significandDigits, hr b rfl]
          rfl
  | cons d ds ih =>
      rw [Digits.bytes_cons, List.cons_append, significandDigits, digit?_fin, Digits.extend]
      by_cases hv : v * 10 + d < UInt64.size
      · have hle := Digits.length_extend_le (v * 10 + d) ds
        simp only [if_pos hv, ih, List.length_cons, Prod.mk.injEq, true_and, and_true]
        omega
      · simp only [if_neg hv, Nat.sub_self, Nat.add_zero]
        rfl

theorem dropDigits_bytes (hr : NoDigit rest) (ds : Digits) (c : Nat) :
    dropDigits c (ds.bytes ++ rest) = (c + ds.length, rest) := by
  induction ds generalizing c with
  | nil =>
      cases rest with
      | nil => rfl
      | cons b rest =>
          change dropDigits c (b :: rest) = _
          rw [dropDigits, hr b rfl]
          rfl
  | cons d ds ih =>
      rw [Digits.bytes_cons, List.cons_append, dropDigits, digit?_fin, Option.isSome_some,
        if_pos rfl, ih, List.length_cons, Nat.add_assoc, Nat.add_comm 1]

theorem exponentDigits_bytes (hr : NoDigit rest) (ds : Digits) {v : Nat}
    (hv : v < exponentBound) :
    exponentDigits v (ds.bytes ++ rest) =
      (if ds.valueFrom v < exponentBound then some (ds.valueFrom v) else none, rest) := by
  induction ds generalizing v with
  | nil =>
      have hvalue : exponentDigits v rest = (some v, rest) := by
        cases rest with
        | nil => rfl
        | cons b rest => rw [exponentDigits, hr b rfl]
      exact hvalue.trans (by rw [if_pos (show Digits.valueFrom v [] < exponentBound from hv)]; rfl)
  | cons d ds ih =>
      have hcons : Digits.valueFrom v (d :: ds) = Digits.valueFrom (v * 10 + d) ds := rfl
      rw [Digits.bytes_cons, List.cons_append, exponentDigits, digit?_fin, hcons]
      by_cases hlt : v * 10 + d < exponentBound
      · simp only [if_pos hlt]
        exact ih hlt
      · have hle := Digits.le_valueFrom (v * 10 + d) ds
        simp only [if_neg hlt]
        rw [dropDigits_bytes hr, if_neg (by omega)]

end Reading

/-! ## Reading the parts -/

section Parts

variable {negative : Bool} {rest : Bytes}

theorem toOption_scaled (significand : Nat) (power : Int) (rest : Bytes) :
    (scaled negative significand power rest).toOption =
      (Double.ofDecimal? negative significand power).map fun x => (.double x, rest) := by
  rw [scaled]
  cases Double.ofDecimal? negative significand power with
  | none => rfl
  | some x => rfl

/-- An exponent part without its sign. -/
def unsignedExponent (negative : Bool) (significand : Nat) (start : Int) (down : Bool)
    (bytes : Bytes) : Except DecodeError (Number × Bytes) :=
  match bytes with
  | b :: rest =>
    match digit? b with
    | none => .error .malformed
    | some d =>
      match exponentDigits d rest with
      | (some e, rest) =>
        scaled negative significand (saturate (if down then start - e else start + e)) rest
      | (none, rest) =>
        if significand ≠ 0 ∧ ¬ down then .error .malformed else scaled negative 0 0 rest
  | [] => .error .malformed

theorem exponentPart_unsigned {bs : Bytes} (h : ∀ b ∈ bs.head?, b ≠ plus ∧ b ≠ minus)
    (significand : Nat) (start : Int) :
    exponentPart negative significand start bs =
      unsignedExponent negative significand start false bs := by
  cases bs with
  | nil => rfl
  | cons b bs =>
      obtain ⟨hplus, hminus⟩ := h b rfl
      rw [exponentPart.eq_def]
      split
      next down bytes hsign =>
        split at hsign
        · next heq => exact absurd (List.cons.inj heq).1 hplus
        · next heq => exact absurd (List.cons.inj heq).1 hminus
        · cases hsign
          rfl

/-- The digits of an exponent scale the significand. -/
theorem unsignedExponent_bytes (e : Exponent) (hr : NoDigit rest) (significand : Nat)
    (power : Int) :
    (unsignedExponent negative significand power (e.sign = .minus)
        (e.digits.bytes ++ rest)).toOption =
      (Numeral.scaled? negative significand power (some e)).map fun x => (.double x, rest) := by
  obtain ⟨d, ds, hdigits⟩ := List.exists_cons_of_ne_nil e.digits_ne_nil
  have hvalue : e.digits.value = Digits.valueFrom d ds := by
    rw [Digits.value, hdigits]
    change Digits.valueFrom (0 * 10 + d) ds = _
    rw [Nat.zero_mul, Nat.zero_add]
  have hd : d.val < exponentBound := by
    have := d.isLt
    rw [exponentBound]
    omega
  rw [hdigits, Digits.bytes_cons, List.cons_append, unsignedExponent, digit?_fin,
    Numeral.scaled?, hvalue]
  simp only [exponentDigits_bytes hr ds hd]
  by_cases hbound : Digits.valueFrom d ds < exponentBound
  · simp only [if_pos hbound, toOption_scaled, decide_eq_true_eq]
  · simp only [if_neg hbound, decide_eq_true_eq]
    by_cases hzero : significand = 0 ∨ e.sign = .minus
    · rw [if_pos hzero, if_neg (by tauto), toOption_scaled]
    · rw [if_neg hzero, if_pos (by tauto)]
      rfl

theorem exponentPart_bytes (negative : Bool) (e : Exponent) (hr : NoDigit rest)
    (significand : Nat) (power : Int) :
    (exponentPart negative significand power
        (e.sign.bytes ++ e.digits.bytes ++ rest)).toOption =
      (Numeral.scaled? negative significand power (some e)).map fun x => (.double x, rest) := by
  rw [← unsignedExponent_bytes e hr]
  cases hsign : e.sign with
  | absent =>
      have hunsigned : ∀ b ∈ (e.digits.bytes ++ rest).head?, b ≠ plus ∧ b ≠ minus := by
        obtain ⟨d, ds, hdigits⟩ := List.exists_cons_of_ne_nil e.digits_ne_nil
        rw [hdigits]
        rintro b ⟨⟩
        exact ⟨digitByte_ne_plus d, digitByte_ne_minus d⟩
      exact congrArg _ (exponentPart_unsigned hunsigned significand power)
  | plus => rfl
  | minus => rfl

theorem exponentOrEnd_of_endsNumber (h : EndsNumber rest) (significand : Nat) (power : Int) :
    exponentOrEnd negative significand power rest = scaled negative significand power rest := by
  cases rest with
  | nil => rfl
  | cons b bs =>
      obtain ⟨-, -, hlower, hupper⟩ := h b rfl
      rw [exponentOrEnd.eq_def]
      split
      · next heq => exact absurd (List.cons.inj heq).1 hlower
      · next heq => exact absurd (List.cons.inj heq).1 hupper
      · rfl

theorem exponentOrEnd_bytes (e : Option Exponent) (hr : EndsNumber rest) (significand : Nat)
    (power : Int) :
    (exponentOrEnd negative significand power (Numeral.exponentBytes e ++ rest)).toOption =
      (Numeral.scaled? negative significand power e).map fun x => (.double x, rest) := by
  cases e with
  | none =>
      change (exponentOrEnd negative significand power rest).toOption = _
      rw [exponentOrEnd_of_endsNumber hr, toOption_scaled, Numeral.scaled?]
  | some e =>
      have hpart := exponentPart_bytes negative e hr.noDigit significand power
      change (exponentOrEnd negative significand power (e.bytes ++ rest)).toOption = _
      rw [Exponent.bytes]
      cases e.capital with
      | true => exact hpart
      | false => exact hpart

theorem noDigit_exponentBytes (e : Option Exponent) (hr : NoDigit rest) :
    NoDigit (Numeral.exponentBytes e ++ rest) := by
  cases e with
  | none => exact hr
  | some e =>
      change NoDigit (e.bytes ++ rest)
      rw [Exponent.bytes]
      rintro b ⟨⟩
      cases e.capital <;> decide

theorem fractionPart_bytes (negative : Bool) {ds : Digits} (hds : ds ≠ []) (e : Option Exponent)
    (hr : EndsNumber rest) (significand : Nat) (power : Int) :
    (fractionPart negative significand power
        (ds.bytes ++ (Numeral.exponentBytes e ++ rest))).toOption =
      (Numeral.scaled? negative (ds.extend significand).1
        (power - (ds.length - (ds.extend significand).2.length : Nat)) e).map
        fun x => (.double x, rest) := by
  have hdigit := noDigit_exponentBytes e hr.noDigit
  have hlength := Digits.length_extend_le significand ds
  have hpos := List.length_pos_iff.2 hds
  rw [fractionPart, significandDigits_bytes hdigit]
  simp only [dropDigits_bytes hdigit, Nat.zero_add]
  rw [if_neg (by omega)]
  exact exponentOrEnd_bytes e hr _ _

end Parts

/-! ## Reading numerals -/

namespace Numeral

variable {n : Numeral} {rest : Bytes}

theorem number?_of_integer?_eq_none (h : n.integer? = none) :
    n.number? = n.double?.map .double := by
  rw [number?, h]

theorem integer?_of_fraction (h : n.fraction ≠ []) : n.integer? = none := by
  rw [integer?, if_pos (.inl h)]

theorem integer?_of_exponent (h : n.exponent.isSome) : n.integer? = none := by
  rw [integer?, if_pos (.inr (.inl h))]

theorem integer?_of_whole (hfraction : n.fraction = []) (hexponent : n.exponent = none) :
    n.integer? = if n.negative ∧ n.whole.value = 0 then none
      else WordInt.ofInt? (if n.negative then -n.whole.value else n.whole.value) := by
  simp [integer?, hfraction, hexponent]

/-- A numeral without fraction and exponent is read as an integer if it fits a word. -/
theorem numberTail_whole (hfraction : n.fraction = []) (hexponent : n.exponent = none)
    (hr : EndsNumber rest) :
    (numberTail n.negative (n.whole.extend 0).1 (n.whole.extend 0).2.length rest).toOption =
      n.number?.map (·, rest) := by
  have hplain := integer?_of_whole hfraction hexponent
  have hdouble : n.integer? = none →
      (scaled n.negative (n.whole.extend 0).1 (n.whole.extend 0).2.length rest).toOption =
        n.number?.map (·, rest) := by
    intro h
    rw [number?_of_integer?_eq_none h, double?, hfraction, hexponent, toOption_scaled,
      Option.map_map]
    rfl
  have hinteger : ∀ i : WordInt, n.integer? = some i →
      (Except.ok (.integer i, rest) : Except DecodeError (Number × Bytes)).toOption =
        n.number?.map (·, rest) := by
    intro i h
    rw [number?, h]
    rfl
  have htail : numberTail n.negative (n.whole.extend 0).1 (n.whole.extend 0).2.length rest =
      if (n.whole.extend 0).2.length ≠ 0 then
        scaled n.negative (n.whole.extend 0).1 (n.whole.extend 0).2.length rest
      else if h : (n.whole.extend 0).1 < 18446744073709551616 then
        if n.negative then
          if h' : 0 < (n.whole.extend 0).1 ∧ (n.whole.extend 0).1 ≤ 9223372036854775808 then
            .ok (.integer ⟨-(n.whole.extend 0).1, by omega, by omega⟩, rest)
          else scaled true (n.whole.extend 0).1 0 rest
        else .ok (.integer ⟨(n.whole.extend 0).1, by omega, by omega⟩, rest)
      else .error .malformed := by
    cases rest with
    | nil => rfl
    | cons b bs =>
        obtain ⟨-, hpoint, hlower, hupper⟩ := hr b rfl
        rw [numberTail.eq_def]
        split
        · next heq => exact absurd (List.cons.inj heq).1 hpoint
        · next heq => exact absurd (List.cons.inj heq).1 hlower
        · next heq => exact absurd (List.cons.inj heq).1 hupper
        · rfl
  rw [htail]
  by_cases hsize : n.whole.value < 18446744073709551616
  · have hextend : n.whole.extend 0 = (n.whole.value, []) := Digits.extend_of_lt hsize
    simp only [hextend, List.length_nil] at hdouble ⊢
    rw [if_neg (by simp), dif_pos hsize]
    cases hnegative : n.negative with
    | false =>
        rw [hnegative, if_neg (by simp), if_neg (by simp), WordInt.ofInt?,
          dif_pos ⟨by omega, by omega⟩] at hplain
        exact hinteger _ hplain
    | true =>
        rw [hnegative, if_pos rfl] at hplain
        rw [hnegative] at hdouble
        rw [if_pos rfl]
        by_cases hword : 0 < n.whole.value ∧ n.whole.value ≤ 9223372036854775808
        · rw [if_neg (by omega), WordInt.ofInt?, dif_pos ⟨by omega, by omega⟩] at hplain
          rw [dif_pos hword]
          exact hinteger _ hplain
        · rw [dif_neg hword]
          apply hdouble
          rw [hplain]
          split
          · rfl
          · next hzero =>
            have hpos : n.whole.value ≠ 0 := fun h => hzero ⟨rfl, h⟩
            rw [WordInt.ofInt?]
            apply dif_neg
            rintro ⟨hlower, -⟩
            omega
  · have hdropped : (n.whole.extend 0).2 ≠ [] :=
      Digits.extend_of_le (by decide) (Nat.not_lt.1 hsize)
    rw [if_pos (by simpa using hdropped)]
    apply hdouble
    rw [hplain]
    split
    · rfl
    · rw [WordInt.ofInt?]
      apply dif_neg
      split <;> omega

/-- What follows the digits before the point is read as the rest of the numeral. -/
theorem numberTail_bytes (n : Numeral) (hr : EndsNumber rest) :
    (numberTail n.negative (n.whole.extend 0).1 (n.whole.extend 0).2.length
        (fractionBytes n.fraction ++ (exponentBytes n.exponent ++ rest))).toOption =
      n.number?.map (·, rest) := by
  by_cases hfraction : n.fraction = []
  · cases hexponent : n.exponent with
    | none =>
        have htail : fractionBytes n.fraction ++ (exponentBytes none ++ rest) = rest := by
          rw [hfraction]
          rfl
        rw [htail]
        exact numberTail_whole hfraction hexponent hr
    | some e =>
        have hpart := exponentPart_bytes n.negative e hr.noDigit
          (n.whole.extend 0).1 (n.whole.extend 0).2.length
        have htail : fractionBytes n.fraction ++ (exponentBytes (some e) ++ rest) =
            e.bytes ++ rest := by
          rw [hfraction]
          rfl
        rw [htail, number?_of_integer?_eq_none (integer?_of_exponent (by rw [hexponent]; rfl)),
          double?, hfraction, hexponent, Exponent.bytes, Option.map_map]
        cases e.capital with
        | true => exact hpart
        | false => exact hpart
  · have hpart := fractionPart_bytes n.negative hfraction n.exponent hr
      (n.whole.extend 0).1 (n.whole.extend 0).2.length
    rw [number?_of_integer?_eq_none (integer?_of_fraction hfraction), double?, fractionBytes,
      if_neg hfraction, Option.map_map]
    exact hpart

end Numeral

theorem digitsPart_cons {negative : Bool} {b : UInt8} (hzero : b ≠ zero) (bs : Bytes) :
    digitsPart negative (b :: bs) =
      match digit? b with
      | none => .error .malformed
      | some d =>
        numberTail negative (significandDigits d 0 bs).1
          (dropDigits 0 (significandDigits d 0 bs).2.2).1
          (dropDigits 0 (significandDigits d 0 bs).2.2).2 := by
  rw [digitsPart.eq_def]
  split
  · next heq => exact absurd (List.cons.inj heq).1 hzero
  · next heq =>
      obtain ⟨rfl, rfl⟩ := List.cons.inj heq
      rfl
  · next heq => cases heq

theorem number_cons {b : UInt8} (hminus : b ≠ minus) (bs : Bytes) :
    number (b :: bs) = digitsPart false (b :: bs) := by
  rw [number.eq_def]
  split
  · next heq => exact absurd (List.cons.inj heq).1 hminus
  · rfl

theorem digitsPart_zero {negative : Bool} {rest : Bytes} (hr : NoDigit rest) :
    digitsPart negative (zero :: rest) = numberTail negative 0 0 rest := by
  cases rest with
  | nil => rfl
  | cons b rest =>
      change (if (digit? b).isSome then _ else numberTail negative 0 0 (b :: rest)) = _
      rw [hr b rfl, if_neg (by decide)]

namespace Numeral

variable {rest : Bytes}

theorem noDigit_fractionBytes (ds : Digits) (hr : NoDigit rest) :
    NoDigit (fractionBytes ds ++ rest) := by
  rw [fractionBytes]
  split
  · exact hr
  · rintro b ⟨⟩
    decide

theorem digitsPart_bytes (n : Numeral) (hr : EndsNumber rest) :
    (digitsPart n.negative (n.whole.bytes ++
        (fractionBytes n.fraction ++ (exponentBytes n.exponent ++ rest)))).toOption =
      n.number?.map (·, rest) := by
  have hdigit := noDigit_fractionBytes n.fraction (noDigit_exponentBytes n.exponent hr.noDigit)
  rw [← numberTail_bytes n hr]
  rcases n.whole_eq with hwhole | ⟨d, ds, hd, hwhole⟩
  · rw [hwhole]
    exact congrArg _ (digitsPart_zero hdigit)
  · have hextend : n.whole.extend 0 = Digits.extend d ds := by
      have hfits : 0 * 10 + d.val < UInt64.size := by
        have := d.isLt
        change 0 * 10 + d.val < 18446744073709551616
        omega
      rw [hwhole, Digits.extend, if_pos hfits, Nat.zero_mul, Nat.zero_add]
    rw [hextend, hwhole, Digits.bytes_cons, List.cons_append,
      digitsPart_cons (digitByte_ne_zero hd), digit?_fin]
    simp only [significandDigits_bytes hdigit, dropDigits_bytes hdigit, Nat.zero_add]

/-- The digits before the point start with a digit. -/
theorem exists_whole (n : Numeral) : ∃ d ds, n.whole = d :: ds := by
  rcases n.whole_eq with hwhole | ⟨d, ds, -, hwhole⟩
  · exact ⟨0, [], hwhole⟩
  · exact ⟨d, ds, hwhole⟩

/-- A numeral is read as the number that its parts make. -/
theorem number_bytes (n : Numeral) (hr : EndsNumber rest) :
    (number (n.bytes ++ rest)).toOption = n.number?.map (·, rest) := by
  have hdigits := digitsPart_bytes n hr
  rw [bytes, List.append_assoc, List.append_assoc, List.append_assoc]
  cases hnegative : n.negative with
  | true =>
      rw [hnegative] at hdigits
      exact hdigits
  | false =>
      obtain ⟨d, ds, hwhole⟩ := n.exists_whole
      rw [hnegative, hwhole, Digits.bytes_cons, List.cons_append] at hdigits
      rw [hwhole, Digits.bytes_cons, if_neg (by decide), List.nil_append, List.cons_append,
        number_cons (digitByte_ne_minus d)]
      exact hdigits

end Numeral

/-! ## Skipping numerals -/

section Skipping

variable {rest : Bytes}

theorem skipDigits_bytes {ds : Digits} (hds : ds ≠ []) (hr : NoDigit rest) :
    skipDigits (ds.bytes ++ rest) = .ok rest := by
  obtain ⟨d, ds, rfl⟩ := List.exists_cons_of_ne_nil hds
  rw [skipDigits, dropDigits_bytes hr, Nat.zero_add]
  rfl

/-- Passes over the digits of an exponent and the sign before them. -/
def skipSigned (bytes : Bytes) : Except DecodeError Bytes :=
  match bytes with
  | plus :: rest => skipDigits rest
  | minus :: rest => skipDigits rest
  | _ => skipDigits bytes

theorem skipSigned_bytes (e : Exponent) (hr : NoDigit rest) :
    skipSigned (e.sign.bytes ++ e.digits.bytes ++ rest) = .ok rest := by
  have hskip := skipDigits_bytes e.digits_ne_nil hr
  cases e.sign with
  | absent =>
      obtain ⟨d, ds, hdigits⟩ := List.exists_cons_of_ne_nil e.digits_ne_nil
      rw [hdigits] at hskip ⊢
      change skipSigned (digitByte d :: (Digits.bytes ds ++ rest)) = _
      rw [skipSigned.eq_def]
      split
      · next heq => exact absurd (List.cons.inj heq).1 (digitByte_ne_plus d)
      · next heq => exact absurd (List.cons.inj heq).1 (digitByte_ne_minus d)
      · exact hskip
  | plus => exact hskip
  | minus => exact hskip

theorem skipExponent_bytes (e : Option Exponent) (hr : EndsNumber rest) :
    skipExponent (Numeral.exponentBytes e ++ rest) = .ok rest := by
  cases e with
  | none =>
      change skipExponent rest = _
      cases rest with
      | nil => rfl
      | cons b rest =>
          obtain ⟨-, -, hlower, hupper⟩ := hr b rfl
          rw [skipExponent.eq_def]
          split
          · next heq => exact absurd (List.cons.inj heq).1 hlower
          · next heq => exact absurd (List.cons.inj heq).1 hupper
          · rfl
  | some e =>
      have hskip := skipSigned_bytes e hr.noDigit
      change skipExponent (e.bytes ++ rest) = _
      rw [Exponent.bytes]
      cases e.capital with
      | true => exact hskip
      | false => exact hskip

/-- The bytes after a minus sign, if there is one. -/
def unsigned (bytes : Bytes) : Bytes :=
  match bytes with
  | minus :: rest => rest
  | _ => bytes

/-- Passes over the digits before the point. -/
def skipWhole (bytes : Bytes) : Except DecodeError Bytes :=
  match bytes with
  | zero :: rest =>
    match rest with
    | b :: _ => if (digit? b).isSome then .error .malformed else .ok rest
    | [] => .ok rest
  | _ => skipDigits bytes

/-- Passes over a fraction, if one follows. -/
def skipFraction (bytes : Bytes) : Except DecodeError Bytes :=
  match bytes with
  | point :: rest => skipDigits rest
  | _ => .ok bytes

theorem skipNumber_eq (bytes : Bytes) :
    skipNumber bytes = skipWhole (unsigned bytes) >>= fun rest =>
      skipFraction rest >>= skipExponent := by
  have hfraction : ∀ rest, (match rest with
      | point :: rest => skipDigits rest >>= skipExponent
      | _ => Except.ok rest >>= skipExponent) = (skipFraction rest >>= skipExponent) := by
    intro rest
    rw [skipFraction.eq_def]
    split <;> rfl
  simp only [skipNumber, ← hfraction]
  change (match unsigned bytes with
    | zero :: rest => _
    | _ => _) = _
  rw [skipWhole.eq_def]
  split
  · next rest _ =>
      cases rest with
      | nil => rfl
      | cons b rest =>
          change (if (digit? b).isSome then _ else _) = (if (digit? b).isSome then _ else _) >>= _
          by_cases hdigit : (digit? b).isSome
          · rw [if_pos hdigit, if_pos hdigit]
            rfl
          · rw [if_neg hdigit, if_neg hdigit]
            rfl
  · rfl

theorem skipWhole_bytes (n : Numeral) (hr : NoDigit rest) :
    skipWhole (n.whole.bytes ++ rest) = .ok rest := by
  rcases n.whole_eq with hwhole | ⟨d, ds, hd, hwhole⟩
  · rw [hwhole]
    cases rest with
    | nil => rfl
    | cons b rest =>
        change (if (digit? b).isSome then _ else Except.ok (b :: rest)) = _
        rw [hr b rfl, if_neg (by decide)]
  · have hskip := skipDigits_bytes (List.cons_ne_nil d ds) hr
    rw [hwhole]
    rw [Digits.bytes_cons, List.cons_append] at hskip ⊢
    rw [skipWhole.eq_def]
    split
    · next heq => exact absurd (List.cons.inj heq).1 (digitByte_ne_zero hd)
    · exact hskip

theorem skipFraction_bytes (ds : Digits) (hr : NoDigit rest)
    (hpoint : ∀ b ∈ rest.head?, b ≠ point) :
    skipFraction (Numeral.fractionBytes ds ++ rest) = .ok rest := by
  rw [Numeral.fractionBytes]
  by_cases hds : ds = []
  · rw [if_pos hds, List.nil_append]
    cases rest with
    | nil => rfl
    | cons b rest =>
        rw [skipFraction.eq_def]
        split
        · next heq => exact absurd (List.cons.inj heq).1 (hpoint b rfl)
        · rfl
  · rw [if_neg hds]
    exact skipDigits_bytes hds hr

theorem ne_point_exponentBytes (e : Option Exponent) (hr : EndsNumber rest) :
    ∀ b ∈ (Numeral.exponentBytes e ++ rest).head?, b ≠ point := by
  cases e with
  | none => exact fun b hb => (hr b hb).2.1
  | some e =>
      change ∀ b ∈ (e.bytes ++ rest).head?, b ≠ point
      rw [Exponent.bytes]
      rintro b ⟨⟩
      cases e.capital <;> decide

theorem unsigned_bytes (n : Numeral) (rest : Bytes) :
    unsigned (n.bytes ++ rest) = n.whole.bytes ++
      (Numeral.fractionBytes n.fraction ++ (Numeral.exponentBytes n.exponent ++ rest)) := by
  rw [Numeral.bytes, List.append_assoc, List.append_assoc, List.append_assoc]
  cases n.negative with
  | true => rfl
  | false =>
      obtain ⟨d, ds, hwhole⟩ := n.exists_whole
      rw [hwhole, Digits.bytes_cons, if_neg (by decide), List.nil_append, List.cons_append,
        unsigned.eq_def]
      split
      · next heq => exact absurd (List.cons.inj heq).1 (digitByte_ne_minus d)
      · rfl

/-- A numeral is skipped as a whole. -/
theorem skipNumber_bytes (n : Numeral) (hr : EndsNumber rest) :
    skipNumber (n.bytes ++ rest) = .ok rest := by
  have hdigit := noDigit_exponentBytes n.exponent hr.noDigit
  rw [skipNumber_eq, unsigned_bytes,
    skipWhole_bytes n (Numeral.noDigit_fractionBytes n.fraction hdigit)]
  change skipFraction _ >>= skipExponent = _
  rw [skipFraction_bytes n.fraction hdigit (ne_point_exponentBytes n.exponent hr)]
  exact skipExponent_bytes n.exponent hr

end Skipping

/-! ## First bytes -/

/-- A byte that can start a numeral. -/
def StartsNumber (b : UInt8) : Prop :=
  b = minus ∨ (digit? b).isSome

instance (b : UInt8) : Decidable (StartsNumber b) :=
  inferInstanceAs (Decidable (_ ∨ _))

theorem StartsNumber.ne {b c : UInt8} (h : StartsNumber b) (hc : ¬ StartsNumber c) : b ≠ c := by
  rintro rfl
  exact hc h

/-- A numeral starts with a sign or a digit. -/
theorem Numeral.bytes_eq_cons (n : Numeral) : ∃ b bs, StartsNumber b ∧ n.bytes = b :: bs := by
  rw [Numeral.bytes]
  cases n.negative with
  | true => exact ⟨minus, _, .inl rfl, rfl⟩
  | false =>
      obtain ⟨d, ds, hwhole⟩ := n.exists_whole
      rw [hwhole]
      exact ⟨digitByte d, _, .inr (by rw [digit?_fin]; rfl), rfl⟩

end Json

end GossipDirectory
