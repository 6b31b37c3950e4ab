import GossipDirectory.Proofs.Json.SequenceRead

/-!
# Reading documents from their texts

Whatever text of a document is read, within its budget of levels the reader arrives at the value
that the document stands for, and refuses it if there is none or if it nests deeper. Skipping passes
over every text.
-/

namespace GossipDirectory

namespace Json

/-! ## Values -/

theorem scalar_ignoresSpace : IgnoresSpace scalar := by
  intro bytes
  rw [scalar, scalar, skipSpace_skipSpace]

theorem value_ignoresSpace (budget : Nat) : IgnoresSpace (value budget) := by
  intro bytes
  cases budget with
  | zero => exact scalar_ignoresSpace bytes
  | succ budget => rw [value, value, skipSpace_skipSpace, scalar_ignoresSpace]

theorem readsNames_string : ReadsNames string Units.text? :=
  fun _ _ h rest => string_unitsText h rest

theorem scalar_of_startsNumber {b : UInt8} (h : StartsNumber b) (bs : Bytes) :
    scalar (b :: bs) = number (b :: bs) >>= fun p => .ok (.number p.1, p.2) := by
  rw [scalar, skipSpace_cons h.startsValue.1]
  split
  · next he => exact absurd (List.cons.inj he).1 (h.ne (by decide))
  · next he => exact absurd (List.cons.inj he).1 (h.ne (by decide))
  · next he => exact absurd (List.cons.inj he).1 (h.ne (by decide))
  · next he => exact absurd (List.cons.inj he).1 (h.ne (by decide))
  · rfl

/-- A value of depth zero is read in the same way with every budget. -/
theorem value_eq_scalar {b : UInt8} (hs : isSpace b = false) (ha : b ≠ openBracket)
    (ho : b ≠ openBrace) (budget : Nat) (bs : Bytes) :
    value budget (b :: bs) = scalar (b :: bs) := by
  cases budget with
  | zero => rfl
  | succ budget =>
      rw [value, skipSpace_cons hs]
      split
      · next he => exact absurd (List.cons.inj he).1 ha
      · next he => exact absurd (List.cons.inj he).1 ho
      · rfl

theorem scalar_stringText {units : Units} {text : Bytes} (h : StringText units text)
    (rest : Bytes) :
    (scalar (text ++ rest)).toOption = (Document.string units).value?.map (·, rest) := by
  obtain ⟨bs, hbs, hquote⟩ := h.append rest
  rw [hquote]
  change (string _ >>= _).toOption = _
  rw [toOption_bind, string_unitsText hbs, Document.value?]
  cases units.text? with
  | none => rfl
  | some s => rfl

theorem scalar_text {d : Document} {text : Bytes} (h : Text d text) (hdepth : d.depth = 0)
    {rest : Bytes} (hrest : EndsNumber rest) :
    (scalar (text ++ rest)).toOption = d.value?.map (·, rest) := by
  cases h with
  | null => rfl
  | boolTrue => rfl
  | boolFalse => rfl
  | number n =>
      have hread := n.number_bytes hrest
      obtain ⟨b, bs, hb, hbytes⟩ := n.bytes_eq_cons
      rw [hbytes, List.cons_append] at hread ⊢
      rw [scalar_of_startsNumber hb, toOption_bind, hread, Document.value?]
      cases n.number? with
      | none => rfl
      | some x => rfl
  | string h => exact scalar_stringText h rest
  | emptyArray => cases hdepth
  | array => cases hdepth
  | emptyObject => cases hdepth
  | object => cases hdepth

theorem value_scalarText {d : Document} {text : Bytes} (h : Text d text) (hdepth : d.depth = 0)
    (budget : Nat) {rest : Bytes} (hrest : EndsNumber rest) :
    (value budget (text ++ rest)).toOption = (d.within? budget).map (·, rest) := by
  have hscalar := scalar_text h hdepth hrest
  rw [Document.within?_of_depth_le (by omega)]
  obtain ⟨b, bs, hb, rfl⟩ := h.eq_cons
  obtain ⟨harray, hobject⟩ := hb.ne_open hdepth
  exact (congrArg _ (value_eq_scalar hb.startsValue.1 harray hobject budget _)).trans hscalar

/-- Neither arrays nor objects are read once the budget is used up. -/
theorem value_zero_text {d : Document} {text : Bytes} (h : Text d text) (hdepth : d.depth ≠ 0)
    (rest : Bytes) : (value 0 (text ++ rest)).toOption = none := by
  cases h with
  | emptyArray => rfl
  | array => rfl
  | emptyObject => rfl
  | object => rfl
  | _ => exact absurd rfl hdepth

theorem memberValue_reads {item : Reader Value} {read : Document → Option Value}
    {m : Units × Document} {text : Bytes} (h : MemberText m text)
    (hitem : ∀ docText, Padded m.2 docText → Reads item (read m.2) docText)
    (acc : List (String × Value)) :
    Reads (member string (memberValue item) acc) ((Document.member? read m).map (· :: acc))
      text := by
  have hread : Reads (member string (memberValue item) acc)
      (m.1.text?.bind fun name => (read m.2).map fun v => (name, v) :: acc) text :=
    reads_member readsNames_string h fun name after docText hafter hd _ =>
      reads_colon hafter ((hitem docText hd).map fun v => (name, v) :: acc)
  have hmember : m.1.text?.bind (fun name => (read m.2).map fun v => (name, v) :: acc) =
      (Document.member? read m).map (· :: acc) := by
    rw [Document.member?]
    cases m.1.text? with
    | none => rfl
    | some name =>
        cases read m.2 with
        | none => rfl
        | some v => rfl
  rwa [hmember] at hread

/-- Members that are collected last first are the members in reverse. -/
theorem foldlM_collect {μ α : Type} (f : μ → Option α) (ms : List μ) (acc : List α) :
    ms.foldlM (fun acc m => (f m).map (· :: acc)) acc = (ms.mapM f).map (·.reverse ++ acc) := by
  induction ms generalizing acc with
  | nil => rfl
  | cons m ms ih =>
      rw [List.foldlM_cons, List.mapM_cons]
      cases f m with
      | none => rfl
      | some x =>
          change ms.foldlM _ (x :: acc) = _
          rw [ih]
          change _ = ((ms.mapM f).bind fun xs => some (x :: xs)).map _
          cases ms.mapM f with
          | none => rfl
          | some xs => simp

section Nested

variable {budget : Nat}

/-- An array is read as its items are read with one level less. -/
theorem value_arrayText (hpadded : ∀ d p, Padded d p → Reads (value budget) (d.within? budget) p)
    {xs : List Document} {texts : List Bytes} (hne : xs ≠ []) (h : List.Forall₂ Padded xs texts)
    (rest : Bytes) :
    (value (budget + 1) (openBracket :: (separated texts ++ [closeBracket]) ++ rest)).toOption =
      ((Document.array xs).within? (budget + 1)).map (·, rest) := by
  have hreads : List.Forall₂ (fun x p => Reads (value budget) (x.within? budget) p) xs texts :=
    h.imp hpadded
  have hopens := forall_right_of_forall₂ h fun x p hp =>
    hp.opens.mono fun _ => Document.OpensWith.startsValue
  rw [List.cons_append, List.append_assoc, value, skipSpace_cons (by decide)]
  change (arrayItems (value budget) (separated texts ++ closeBracket :: rest) >>= _).toOption = _
  rw [toOption_bind, arrayItems_texts (value_ignoresSpace budget) hne hopens hreads,
    Document.within?_array]
  cases xs.mapM (Document.within? budget) with
  | none => rfl
  | some vs => rfl

/-- An object is read as the values of its members are read with one level less. -/
theorem value_objectText (hpadded : ∀ d p, Padded d p → Reads (value budget) (d.within? budget) p)
    {ms : List (Units × Document)} {texts : List Bytes} (hne : ms ≠ [])
    (h : List.Forall₂ MemberText ms texts) (rest : Bytes) :
    (value (budget + 1) (openBrace :: (separated texts ++ [closeBrace]) ++ rest)).toOption =
      ((Document.object ms).within? (budget + 1)).map (·, rest) := by
  have hreads : List.Forall₂ (fun m p => ∀ acc, Reads (member string
      (memberValue (value budget)) acc)
      ((Document.member? (Document.within? budget) m).map (· :: acc)) p) ms texts :=
    h.imp fun m p hp acc => memberValue_reads hp (hpadded m.2) acc
  have hopens := forall_right_of_forall₂ h fun m p hp => hp.opens
  have hmembers := objectMembers_texts
    (f := fun acc m => (Document.member? (Document.within? budget) m).map (· :: acc))
    hne hopens hreads [] rest
  rw [foldlM_collect] at hmembers
  rw [List.cons_append, List.append_assoc, value, skipSpace_cons (by decide)]
  change (objectMembers string _ [] (separated texts ++ closeBrace :: rest) >>= _).toOption = _
  rw [toOption_bind, hmembers, Document.within?_object]
  cases ms.mapM (Document.member? (Document.within? budget)) with
  | none => rfl
  | some read =>
      change some (Value.object (ordered (List.reverse (List.reverse read ++ []))), rest) = _
      rw [List.append_nil, List.reverse_reverse]
      rfl

end Nested

/-- However a document is written, it is read as the value that it stands for, as far as the budget
of levels goes; it is refused if it nests deeper. -/
theorem value_text {budget : Nat} {d : Document} {text : Bytes} (h : Text d text) {rest : Bytes}
    (hrest : EndsNumber rest) :
    (value budget (text ++ rest)).toOption = (d.within? budget).map (·, rest) := by
  induction budget generalizing d text rest with
  | zero =>
      by_cases hdepth : d.depth = 0
      · exact value_scalarText h hdepth 0 hrest
      · rw [value_zero_text h hdepth, Document.within?_zero hdepth]
        rfl
  | succ budget ih =>
      -- What is nested has one level less, and may have white space around it.
      have hpadded : ∀ d p, Padded d p → Reads (value budget) (d.within? budget) p := by
        intro d p hp
        cases hp with
        | mk hbefore h hafter =>
            exact reads_of_token (value_ignoresSpace budget) hbefore hafter fun _ => ih h
      cases h with
      | null => exact value_scalarText .null rfl _ hrest
      | boolTrue => exact value_scalarText .boolTrue rfl _ hrest
      | boolFalse => exact value_scalarText .boolFalse rfl _ hrest
      | number n => exact value_scalarText (.number n) rfl _ hrest
      | string h => exact value_scalarText (.string h) rfl _ hrest
      | @emptyArray ws hws =>
          rw [List.cons_append, List.append_assoc, value, skipSpace_cons (by decide),
            Document.within?_array]
          change (arrayItems (value budget) (ws ++ closeBracket :: rest) >>= _).toOption = _
          rw [arrayItems_empty hws]
          rfl
      | array hne hxs => exact value_arrayText hpadded hne hxs rest
      | @emptyObject ws hws =>
          rw [List.cons_append, List.append_assoc, value, skipSpace_cons (by decide),
            Document.within?_object]
          change (objectMembers string _ [] (ws ++ closeBrace :: rest) >>= _).toOption = _
          rw [objectMembers_empty hws]
          rfl
      | object hne hms => exact value_objectText hpadded hne hms rest

theorem value_padded {budget : Nat} {d : Document} {text : Bytes} (h : Padded d text) :
    Reads (value budget) (d.within? budget) text := by
  cases h with
  | mk hbefore h hafter =>
      exact reads_of_token (value_ignoresSpace budget) hbefore hafter fun _ => value_text h

/-! ## Strings where they are expected -/

/-- The text of the string that a document is. -/
def Document.string? : Document → Option String
  | .string units => units.text?
  | _ => none

theorem Document.string?_eq_some {d : Document} {s : String} :
    d.string? = some s ↔ ∃ units, d = .string units ∧ units.text? = some s := by
  cases d with
  | string units => simp [string?]
  | _ => simp [string?]

theorem Document.value?_eq_string {d : Document} {s : String} :
    d.value? = some (.string s) ↔ d.string? = some s := by
  cases d with
  | null => simp [value?, string?]
  | bool b => simp [value?, string?]
  | number n => simp [value?, string?]
  | string units => simp [value?, string?]
  | array xs => simp [value?, string?]
  | object ms => simp [value?, string?]

/-- A string is read with any budget. -/
theorem Document.within?_eq_string {budget : Nat} {d : Document} {s : String} :
    d.within? budget = some (.string s) ↔ d.string? = some s := by
  rw [← value?_eq_string, within?]
  split
  · exact .rfl
  · next hdepth =>
      constructor
      · intro h
        cases h
      · intro h
        obtain ⟨units, rfl, -⟩ := string?_eq_some.1 (value?_eq_string.1 h)
        exact absurd (Nat.zero_le budget) hdepth

theorem toOption_refuse {α : Type} (expected : String) (bytes : Bytes) :
    (refuse expected bytes : Except DecodeError (α × Bytes)).toOption = none := by
  cases h : (refuse expected bytes : Except DecodeError (α × Bytes)) with
  | error e => rfl
  | ok p => exact absurd h refuse_ne_ok

theorem expectString_ignoresSpace : IgnoresSpace expectString := by
  intro bytes
  rw [expectString, expectString, refuse, refuse, skipSpace_skipSpace, scalar_ignoresSpace]

theorem expectString_stringText {units : Units} {text : Bytes} (h : StringText units text)
    (rest : Bytes) : (expectString (text ++ rest)).toOption = units.text?.map (·, rest) := by
  obtain ⟨bs, hbs, hquote⟩ := h.append rest
  rw [hquote]
  exact string_unitsText hbs rest

theorem expectString_other {b : UInt8} {bs bytes : Bytes} (h : skipSpace bytes = b :: bs)
    (hb : b ≠ quote) : (expectString bytes).toOption = none := by
  rw [expectString, h]
  split
  · next heq => exact absurd (List.cons.inj heq).1 hb
  · exact toOption_refuse _ _

theorem Document.OpensWith.ne_quote {d : Document} {b : UInt8} (h : d.OpensWith b)
    (hd : ∀ units, d ≠ .string units) : b ≠ quote := by
  cases d with
  | null => cases h; decide
  | bool v => cases v <;> cases h <;> decide
  | number n => exact StartsNumber.ne h (by decide)
  | string units => exact absurd rfl (hd units)
  | array xs => cases h; decide
  | object ms => cases h; decide

theorem expectString_padded {d : Document} {text : Bytes} (h : Padded d text) :
    Reads expectString d.string? text := by
  by_cases hd : ∃ units, d = .string units
  · obtain ⟨units, rfl⟩ := hd
    cases h with
    | mk hbefore h hafter =>
        cases h with
        | string h =>
            exact reads_of_token expectString_ignoresSpace hbefore hafter fun rest _ =>
              expectString_stringText h rest
  · rw [not_exists] at hd
    have hnone : d.string? = none := by
      cases d with
      | string units => exact absurd rfl (hd units)
      | _ => rfl
    intro rest _
    obtain ⟨ws, b, bs, hws, hb, rfl⟩ := h.opens
    have hskip : skipSpace (ws ++ b :: bs ++ rest) = b :: (bs ++ rest) := by
      rw [List.append_assoc, skipSpace_append hws]
      exact skipSpace_cons hb.startsValue.1 _
    exact ⟨[], spaces_nil, by rw [expectString_other hskip (hb.ne_quote hd), hnone]; rfl⟩

/-! ## Skipping -/

theorem skippedValue_ignoresSpace (budget : Nat) : IgnoresSpace (skippedValue budget) := by
  intro bytes
  cases budget with
  | zero => rfl
  | succ budget => rw [skippedValue, skippedValue, skipSpace_skipSpace]

theorem readsNames_skippedName : ReadsNames skippedName fun _ => some "" := by
  intro units bs h rest
  rw [skippedName, skipString_unitsText h]
  rfl

theorem skippedValue_of_startsNumber {b : UInt8} (h : StartsNumber b) (budget : Nat) (bs : Bytes) :
    skippedValue (budget + 1) (b :: bs) = (skipNumber (b :: bs)).map ((), ·) := by
  rw [skippedValue, skipSpace_cons h.startsValue.1]
  split
  · next heq => exact absurd (List.cons.inj heq).1 (h.ne (by decide))
  · next heq => exact absurd (List.cons.inj heq).1 (h.ne (by decide))
  · next heq => exact absurd (List.cons.inj heq).1 (h.ne (by decide))
  · next heq => exact absurd (List.cons.inj heq).1 (h.ne (by decide))
  · next heq => exact absurd (List.cons.inj heq).1 (h.ne (by decide))
  · next heq => exact absurd (List.cons.inj heq).1 (h.ne (by decide))
  · rfl

section Nested

variable {budget : Nat}

/-- An array is skipped if its items are skipped with one level less. -/
theorem skippedValue_arrayText (hpadded : ∀ d p, Padded d p → p.length < budget →
      Reads (skippedValue budget) (some ()) p)
    {xs : List Document} {texts : List Bytes} (hne : xs ≠ []) (h : List.Forall₂ Padded xs texts)
    (hbudget : (separated texts).length < budget) (rest : Bytes) :
    (skippedValue (budget + 1)
      (openBracket :: (separated texts ++ [closeBracket]) ++ rest)).toOption =
      some ((), rest) := by
  have hreads : List.Forall₂ (fun _ p => Reads (skippedValue budget) (some ()) p) xs texts := by
    refine (forall₂_mem h).imp ?_
    rintro x p ⟨-, hp, hx⟩
    exact hpadded x p hx (Nat.lt_of_le_of_lt (length_le_of_mem_separated hp) hbudget)
  have hopens := forall_right_of_forall₂ h fun x p hp =>
    hp.opens.mono fun _ => Document.OpensWith.startsValue
  rw [List.cons_append, List.append_assoc, skippedValue, skipSpace_cons (by decide)]
  change (arrayItems (skippedValue budget) (separated texts ++ closeBracket :: rest) >>=
    _).toOption = _
  rw [toOption_bind, arrayItems_texts (skippedValue_ignoresSpace budget) hne hopens hreads]
  have hall : xs.mapM (fun _ => some ()) = some (xs.map fun _ => ()) := List.mapM_pure
  rw [hall]
  rfl

/-- An object is skipped if the values of its members are skipped with one level less. -/
theorem skippedValue_objectText (hpadded : ∀ d p, Padded d p → p.length < budget →
      Reads (skippedValue budget) (some ()) p)
    {ms : List (Units × Document)} {texts : List Bytes} (hne : ms ≠ [])
    (h : List.Forall₂ MemberText ms texts) (hbudget : (separated texts).length < budget)
    (rest : Bytes) :
    (skippedValue (budget + 1)
      (openBrace :: (separated texts ++ [closeBrace]) ++ rest)).toOption = some ((), rest) := by
  have hreads : List.Forall₂ (fun _ p => ∀ u, Reads (member skippedName
      (skippedMember (skippedValue budget)) u) (some ()) p) ms texts := by
    refine (forall₂_mem h).imp ?_
    rintro ⟨k, d⟩ p ⟨-, hp, hm⟩ u
    have hlength := length_le_of_mem_separated hp
    refine reads_member (f := fun _ => some ()) readsNames_skippedName hm
      fun name after docText hafter hd hlt => ?_
    exact reads_colon hafter (hpadded d docText hd (by omega))
  have hopens := forall_right_of_forall₂ h fun m p hp => hp.opens
  have hmembers := objectMembers_texts (f := fun _ _ => some ()) hne hopens hreads () rest
  have hall : ms.foldlM (fun _ _ => some ()) () = some () := List.foldlM_pure
  rw [hall] at hmembers
  rw [List.cons_append, List.append_assoc, skippedValue, skipSpace_cons (by decide)]
  exact hmembers

end Nested

/-- A text is skipped as a whole by anyone who has a level for each of its bytes. -/
theorem skippedValue_text {budget : Nat} {d : Document} {text : Bytes} (h : Text d text)
    (hbudget : text.length < budget) {rest : Bytes} (hrest : EndsNumber rest) :
    (skippedValue budget (text ++ rest)).toOption = some ((), rest) := by
  induction budget generalizing d text rest with
  | zero => exact absurd hbudget (Nat.not_lt_zero _)
  | succ budget ih =>
      have hpadded : ∀ d p, Padded d p → p.length < budget →
          Reads (skippedValue budget) (some ()) p := by
        intro d p hp hlength
        cases hp with
        | @mk d before text after hbefore h hafter =>
            refine reads_of_token (skippedValue_ignoresSpace budget) hbefore hafter fun _ => ih h ?_
            simp only [List.length_append] at hlength
            omega
      cases h with
      | null => rfl
      | boolTrue => rfl
      | boolFalse => rfl
      | number n =>
          have hskip := skipNumber_bytes n hrest
          obtain ⟨b, bs, hb, hbytes⟩ := n.bytes_eq_cons
          rw [hbytes, List.cons_append] at hskip ⊢
          rw [skippedValue_of_startsNumber hb, hskip]
          rfl
      | string h =>
          obtain ⟨bs, hbs, hquote⟩ := h.append rest
          rw [hquote, skippedValue, skipSpace_cons (by decide)]
          change (skipString _ >>= _).toOption = _
          rw [skipString_unitsText hbs]
          rfl
      | @emptyArray ws hws =>
          rw [List.cons_append, List.append_assoc, skippedValue, skipSpace_cons (by decide)]
          change (arrayItems (skippedValue budget) (ws ++ closeBracket :: rest) >>= _).toOption = _
          rw [arrayItems_empty hws]
          rfl
      | array hne hxs =>
          simp only [List.length_cons, List.length_append] at hbudget
          exact skippedValue_arrayText hpadded hne hxs (by omega) rest
      | @emptyObject ws hws =>
          rw [List.cons_append, List.append_assoc, skippedValue, skipSpace_cons (by decide)]
          change (objectMembers skippedName _ () (ws ++ closeBrace :: rest)).toOption = _
          rw [objectMembers_empty hws]
          rfl
      | object hne hms =>
          simp only [List.length_cons, List.length_append] at hbudget
          exact skippedValue_objectText hpadded hne hms (by omega) rest

/-- A value that nobody asked for is passed over, however deep it nests and whatever its strings and
numerals are. -/
theorem skipValue_padded {d : Document} {text : Bytes} (h : Padded d text) {rest : Bytes}
    (hrest : EndsNumber rest) :
    ∃ ws, Spaces ws ∧ skipValue (text ++ rest) = .ok (ws ++ rest) := by
  cases h with
  | @mk d before text after hbefore h hafter =>
      have hread : Reads (skippedValue ((before ++ (text ++ after) ++ rest).length + 1)) (some ())
          (before ++ (text ++ after)) := by
        refine reads_of_token (skippedValue_ignoresSpace _) hbefore hafter fun _ => ?_
        apply skippedValue_text h
        simp only [List.length_append]
        omega
      obtain ⟨ws, hws, hskip⟩ := hread.eq_ok hrest
      refine ⟨ws, hws, ?_⟩
      rw [skipValue, hskip]
      rfl

end Json

end GossipDirectory
