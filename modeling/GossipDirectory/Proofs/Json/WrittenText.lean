import GossipDirectory.Json.Printer
import GossipDirectory.Proofs.Json.TextRead

/-!
# Written values are texts

What is written for a value without doubles is one of the texts of a document that stands for it, so
it is read as every text of this document is. Doubles are left out: their text need not read back to
the same double.
-/

namespace GossipDirectory

namespace Json

/-! ## Strings -/

theorem hexDigit_hexDigitByte {d : Nat} (h : d < 16) : Hex.digit? (hexDigitByte d) = some d := by
  have all : ∀ d < 16, Hex.digit? (hexDigitByte d) = some d := by decide
  exact all d h

theorem hexWord?_control {n : Nat} (h : n < 32) (rest : Bytes) :
    hexWord? (zero :: zero :: hexDigitByte (n / 16) :: hexDigitByte (n % 16) :: rest) =
      some n := by
  have hz : Hex.digit? zero = some 0 := by decide
  have hh := hexDigit_hexDigitByte (d := n / 16) (by omega)
  have hl := hexDigit_hexDigitByte (d := n % 16) (by omega)
  simp only [hexWord?, hz, hh, hl, Option.bind_eq_bind, Option.bind_some, Option.some.injEq]
  omega

theorem unitsText_escapeChar (c : Char) {units : Units} {bs : Bytes} (h : UnitsText units bs) :
    UnitsText (unitsOf c ++ units) (escapeChar c ++ bs) := by
  rw [escapeChar]
  split
  · next hc => subst hc; exact .letter (by decide) h
  split
  · next hc => subst hc; exact .letter (by decide) h
  split
  · next hc => subst hc; exact .letter (by decide) h
  split
  · next hc => subst hc; exact .letter (by decide) h
  split
  · next hc => subst hc; exact .letter (by decide) h
  split
  · next hc => subst hc; exact .letter (by decide) h
  split
  · next hc => subst hc; exact .letter (by decide) h
  split
  · next hcontrol =>
      have hunits : unitsOf c = [c.toNat] := by rw [unitsOf, if_pos (by omega)]
      rw [hunits]
      exact .escape rfl (hexWord?_control hcontrol []) h
  · next hquote hbackslash _ _ _ _ _ hcontrol =>
      exact .plain hquote hbackslash (Nat.le_of_not_lt hcontrol) h

/-- What is written for a string is one of its texts. -/
theorem stringText_stringBytes (s : String) : StringText (.ofText s) (stringBytes s) := by
  have hchars : ∀ cs : List Char, UnitsText (cs.flatMap unitsOf) (cs.flatMap escapeChar) := by
    intro cs
    induction cs with
    | nil => exact .nil
    | cons c cs ih => exact unitsText_escapeChar c ih
  exact .mk (hchars s.toList)

/-! ## Integers -/

theorem utf8EncodeChar_digitChar {d : Nat} (h : d < 10) :
    String.utf8EncodeChar (Decimal.digitChar d) = [digitByte d] := by
  have all : ∀ d < 10, String.utf8EncodeChar (Decimal.digitChar d) = [digitByte d] := by decide
  exact all d h

theorem encode_text_of_lt {n : Nat} (h : n < 10) :
    Utf8.encode (Decimal.text n) = [digitByte n] := by
  rw [Decimal.text, Utf8.encode_ofList, Decimal.render, if_pos h]
  simp [utf8EncodeChar_digitChar h]

theorem encode_text_of_le {n : Nat} (h : 10 ≤ n) :
    Utf8.encode (Decimal.text n) =
      Utf8.encode (Decimal.text (n / 10)) ++ [digitByte (n % 10)] := by
  rw [Decimal.text, Utf8.encode_ofList, Decimal.render, if_neg (by omega)]
  simp [Decimal.text, Utf8.encode_ofList, utf8EncodeChar_digitChar (Nat.mod_lt n (by decide))]

/-- The digits that are written for a number. -/
theorem exists_digits (n : Nat) : ∃ ds : Digits, ds.bytes = Utf8.encode (Decimal.text n) ∧
    ds.value = n ∧ (ds = [0] ∨ ∃ d ds', d ≠ 0 ∧ ds = d :: ds') := by
  induction n using Nat.strongRecOn with
  | ind n ih =>
      by_cases hn : n < 10
      · refine ⟨[⟨n, hn⟩], (encode_text_of_lt hn).symm, ?_, ?_⟩
        · change 0 * 10 + n = n
          omega
        · by_cases hzero : (⟨n, hn⟩ : Fin 10) = 0
          · exact .inl (by rw [hzero])
          · exact .inr ⟨_, [], hzero, rfl⟩
      · obtain ⟨ds, hbytes, hvalue, hfirst⟩ := ih (n / 10) (by omega)
        refine ⟨(ds ++ [⟨n % 10, Nat.mod_lt n (by decide)⟩] : Digits), ?_, ?_, .inr ?_⟩
        · rw [encode_text_of_le (by omega), ← hbytes, Digits.bytes, List.map_append]
          rfl
        · rw [Digits.value, Digits.valueFrom, List.foldl_append]
          change ds.value * 10 + n % 10 = n
          omega
        · rcases hfirst with rfl | ⟨d, ds', hd, rfl⟩
          · have hquotient : n / 10 = 0 := hvalue.symm
            omega
          · exact ⟨d, _, hd, rfl⟩

/-- What is written for an integer is a numeral for it. -/
theorem exists_numeral (i : WordInt) : ∃ n : Numeral,
    n.bytes = Utf8.encode (Number.integer i).text ∧ n.number? = some (.integer i) := by
  have hword : ∀ v, i.val = v → WordInt.ofInt? v = some i := by
    rintro v rfl
    exact dif_pos ⟨i.lower, i.upper⟩
  rw [Number.text]
  cases hval : i.val with
  | ofNat v =>
      obtain ⟨ds, hbytes, hvalue, hfirst⟩ := exists_digits v
      refine ⟨⟨false, ds, [], none, hfirst⟩, ?_, ?_⟩
      · rw [Decimal.signedText, ← hbytes]
        exact List.append_nil _
      · rw [Numeral.number?, Numeral.integer?_of_whole rfl rfl, if_neg (by simp),
          if_neg (by simp), hvalue, hword v hval]
  | negSucc v =>
      obtain ⟨ds, hbytes, hvalue, hfirst⟩ := exists_digits (v + 1)
      refine ⟨⟨true, ds, [], none, hfirst⟩, ?_, ?_⟩
      · have hminus : Utf8.encode ("-" ++ Decimal.text (v + 1)) =
            minus :: Utf8.encode (Decimal.text (v + 1)) := by
          simp [Utf8.encode_eq_flatMap]
          rfl
        rw [Decimal.signedText, hminus, ← hbytes]
        exact congrArg (minus :: ·) (List.append_nil _)
      · rw [Numeral.number?, Numeral.integer?_of_whole rfl rfl, if_neg (by simp [hvalue]),
          if_pos rfl, hvalue, hword (-(v + 1 : Nat)) (hval.trans (Int.negSucc_eq v))]

/-! ## Values -/

theorem text_array {ds : List Document} {texts : List Bytes} (h : List.Forall₂ Padded ds texts) :
    Text (.array ds) (openBracket :: (separated texts ++ [closeBracket])) := by
  cases h with
  | nil => exact .emptyArray spaces_nil
  | cons hd hds => exact .array (List.cons_ne_nil _ _) (.cons hd hds)

theorem text_object {ms : List (Units × Document)} {texts : List Bytes}
    (h : List.Forall₂ MemberText ms texts) :
    Text (.object ms) (openBrace :: (separated texts ++ [closeBrace])) := by
  cases h with
  | nil => exact .emptyObject spaces_nil
  | cons hm hms => exact .object (List.cons_ne_nil _ _) (.cons hm hms)

theorem memberText_memberBytes (name : String) {d : Document} {text : Bytes} (h : Text d text) :
    MemberText (.ofText name, d) (memberBytes name text) :=
  .mk spaces_nil (stringText_stringBytes name) spaces_nil h.padded

/-- Members in ascending order are kept as they are. -/
theorem ordered_of_pairwise {α : Type} {ms : List (String × α)}
    (h : (ms.map (·.1)).Pairwise (· < ·)) : ordered ms = ms := by
  induction ms with
  | nil => rfl
  | cons m ms ih =>
      obtain ⟨name, v⟩ := m
      rw [List.map_cons, List.pairwise_cons] at h
      have htail : ordered ms = ms := ih h.2
      change insertNew name v (ordered ms) = _
      rw [htail]
      cases ms with
      | nil => rfl
      | cons m' ms => rw [insertNew, if_pos (h.1 m'.1 (by simp))]

mutual

/-- What is written for a value is a text of a document that stands for it and nests as deep. -/
theorem exists_text : (v : Value) → v.IntegersOnly → v.Ordered →
    ∃ d, Text d v.toBytes ∧ d.value? = some v ∧ d.depth = v.depth
  | .null, _, _ => ⟨.null, .null, rfl, rfl⟩
  | .bool true, _, _ => ⟨.bool true, .boolTrue, rfl, rfl⟩
  | .bool false, _, _ => ⟨.bool false, .boolFalse, rfl, rfl⟩
  | .number (.integer i), _, _ => by
    obtain ⟨n, hbytes, hnumber⟩ := exists_numeral i
    refine ⟨.number n, ?_, ?_, rfl⟩
    · rw [Value.toBytes, ← hbytes]
      exact .number n
    · rw [Document.value?, hnumber, Option.map_some]
  | .string s, _, _ => by
    refine ⟨.string (.ofText s), ?_, ?_, rfl⟩
    · rw [Value.toBytes]
      exact .string (stringText_stringBytes s)
    · rw [Document.value?, text?_ofText, Option.map_some]
  | .array xs, hintegers, hordered => by
    obtain ⟨ds, htexts, hvalues, hdepth⟩ := exists_itemTexts xs hintegers hordered
    refine ⟨.array ds, ?_, ?_, ?_⟩
    · rw [Value.toBytes]
      exact text_array htexts
    · rw [Document.value?, hvalues, Option.map_some]
    · rw [Document.depth, Value.depth, hdepth]
  | .object ms, hintegers, hordered => by
    obtain ⟨ds, htexts, hvalues, hdepth⟩ := exists_memberTexts ms hintegers hordered.2
    refine ⟨.object ds, ?_, ?_, ?_⟩
    · rw [Value.toBytes]
      exact text_object htexts
    · rw [Document.value?, hvalues, Option.map_some, ordered_of_pairwise hordered.1]
    · rw [Document.depth, Value.depth, hdepth]

theorem exists_itemTexts : (xs : List Value) → Value.IntegersOnlyItems xs →
    Value.OrderedItems xs → ∃ ds, List.Forall₂ Padded ds (itemBytes xs) ∧
      Document.values? ds = some xs ∧ Document.depthItems ds = Value.depthItems xs
  | [], _, _ => ⟨[], .nil, rfl, rfl⟩
  | x :: xs, hintegers, hordered => by
    obtain ⟨d, htext, hvalue, hdepth⟩ := exists_text x hintegers.1 hordered.1
    obtain ⟨ds, htexts, hvalues, hdepths⟩ := exists_itemTexts xs hintegers.2 hordered.2
    refine ⟨d :: ds, .cons htext.padded htexts, ?_, ?_⟩
    · rw [Document.values?, hvalue, hvalues]
      rfl
    · rw [Document.depthItems, Value.depthItems, hdepth, hdepths]

theorem exists_memberTexts : (ms : List (String × Value)) → Value.IntegersOnlyMembers ms →
    Value.OrderedMembers ms → ∃ ds, List.Forall₂ MemberText ds (memberListBytes ms) ∧
      Document.members? ds = some ms ∧ Document.depthMembers ds = Value.depthMembers ms
  | [], _, _ => ⟨[], .nil, rfl, rfl⟩
  | (name, v) :: ms, hintegers, hordered => by
    obtain ⟨d, htext, hvalue, hdepth⟩ := exists_text v hintegers.1 hordered.1
    obtain ⟨ds, htexts, hvalues, hdepths⟩ := exists_memberTexts ms hintegers.2 hordered.2
    refine ⟨(.ofText name, d) :: ds, .cons (memberText_memberBytes name htext) htexts, ?_, ?_⟩
    · rw [Document.members?, text?_ofText, hvalue, hvalues]
      rfl
    · rw [Document.depthMembers, Value.depthMembers, hdepth, hdepths]

end

end Json

end GossipDirectory
