import GossipDirectory.Envelope.Message
import GossipDirectory.Proofs.Json.TextRead

/-!
# Envelopes read from documents

However a document is written, the envelope is read of it that its members or its two items hold,
if there is one. The payload has all levels but the one that the envelope takes; members with other
names are passed over.

## Implementation notes

The reader is followed member by member by a step on the fields read so far.
-/

namespace GossipDirectory

namespace Message

open Json

/-- How deep a payload may nest; the envelope around it takes one more level. -/
def payloadDepth : Nat := nestingLimit - 1

/-- The fields after one more member with a name. -/
def Fields.named? (fields : Fields) (d : Document) (name : String) : Option Fields :=
  if name = "Context" then
    if fields.context.isSome then none
    else d.string?.map fun s => { fields with context := some s }
  else if name = "Payload" then
    if fields.payload.isSome then none
    else (d.within? payloadDepth).map fun v => { fields with payload := some v }
  else some fields

/-- The fields after one more member. -/
def Fields.member? (fields : Fields) (m : Units × Document) : Option Fields :=
  m.1.text?.bind (fields.named? m.2)

/-- The envelope that is read of a document. -/
def envelope? : Document → Option Message
  | .object ms => (ms.foldlM Fields.member? {}).bind fun fields => fields.message.toOption
  | .array [first, second] => first.string?.bind fun context =>
      (second.within? payloadDepth).map fun payload => { context, payload }
  | _ => none

/-! ## Members -/

theorem field_context_eq (fields : Fields) (bytes : Bytes) :
    field fields "Context" bytes =
      if fields.context.isSome then .error (.duplicateField "Context")
      else skipColon bytes >>= fun rest => expectString rest >>= fun p =>
        .ok ({ fields with context := some p.1 }, p.2) := by
  rfl

theorem field_payload_eq (fields : Fields) (bytes : Bytes) :
    field fields "Payload" bytes =
      if fields.payload.isSome then .error (.duplicateField "Payload")
      else skipColon bytes >>= fun rest => value payloadDepth rest >>= fun p =>
        .ok ({ fields with payload := some p.1 }, p.2) := by
  rfl

theorem field_other {name : String} (hcontext : name ≠ "Context") (hpayload : name ≠ "Payload")
    (fields : Fields) (bytes : Bytes) :
    field fields name bytes =
      skipColon bytes >>= fun rest => skipValue rest >>= fun rest => .ok (fields, rest) := by
  rw [field, if_neg hcontext, if_neg hpayload]

/-- The reader follows the step on the fields, however the member is written. -/
theorem member_field {m : Units × Document} {text : Bytes} (h : MemberText m text)
    (fields : Fields) :
    Reads (member string field fields) (fields.member? m) text := by
  obtain ⟨units, d⟩ := m
  apply reads_member readsNames_string h
  intro name after docText hafter hd _
  rw [Fields.named?]
  by_cases hcontext : name = "Context"
  · subst hcontext
    rw [if_pos rfl, funext (field_context_eq fields)]
    by_cases hsome : fields.context.isSome
    · simp only [if_pos hsome]
      exact fun rest _ => ⟨[], spaces_nil, rfl⟩
    · simp only [if_neg hsome]
      exact reads_colon hafter
        ((expectString_padded hd).map fun s => { fields with context := some s })
  · rw [if_neg hcontext]
    by_cases hpayload : name = "Payload"
    · subst hpayload
      rw [if_pos rfl, funext (field_payload_eq fields)]
      by_cases hsome : fields.payload.isSome
      · simp only [if_pos hsome]
        exact fun rest _ => ⟨[], spaces_nil, rfl⟩
      · simp only [if_neg hsome]
        exact reads_colon hafter
          ((value_padded hd).map fun v => { fields with payload := some v })
    · rw [if_neg hpayload, funext (field_other hcontext hpayload fields)]
      apply reads_colon hafter
      intro rest hrest
      obtain ⟨ws, hws, hskip⟩ := skipValue_padded hd hrest
      refine ⟨ws, hws, ?_⟩
      change (skipValue _ >>= _).toOption = _
      rw [hskip]
      rfl

/-! ## Arrays -/

theorem nextItem_close {α : Type} (first : Bool) (item : Reader α) {ws : Bytes} (h : Spaces ws)
    (rest : Bytes) :
    nextItem first item (ws ++ closeBracket :: rest) = .ok (none, closeBracket :: rest) := by
  rw [nextItem, skipSpace_append h]
  rfl

theorem nextItem_first {α : Type} {item : Reader α} (hitem : IgnoresSpace item) {b : UInt8}
    {bs bytes : Bytes} (h : skipSpace bytes = b :: bs) (hb : b ≠ closeBracket) :
    nextItem true item bytes = item bytes >>= fun p => .ok (some p.1, p.2) := by
  rw [nextItem, ← hitem bytes, h]
  split
  · next heq => exact absurd (List.cons.inj heq).1 hb
  · next heq =>
      rw [heq]
      rfl
  · rfl

theorem nextItem_continued {α : Type} {item : Reader α} {ws : Bytes} (hws : Spaces ws)
    (bytes : Bytes) :
    nextItem false item (ws ++ comma :: bytes) =
      match skipSpace bytes with
      | closeBracket :: _ => .error .malformed
      | _ => item bytes >>= fun p => .ok (some p.1, p.2) := by
  rw [nextItem, skipSpace_append hws]
  rfl

theorem nextItem_comma {α : Type} {item : Reader α} {ws : Bytes} (hws : Spaces ws) {b : UInt8}
    {bs bytes : Bytes} (h : skipSpace bytes = b :: bs) (hb : b ≠ closeBracket) :
    nextItem false item (ws ++ comma :: bytes) = item bytes >>= fun p => .ok (some p.1, p.2) := by
  rw [nextItem_continued hws, h]
  split
  · next heq => exact absurd (List.cons.inj heq).1 hb
  · rfl

/-- Reads what follows the context of an envelope written as an array. -/
def readSecond (context : String) (bytes : Bytes) : Except DecodeError (Message × Bytes) := do
  match ← nextItem false (value payloadDepth) bytes with
  | (none, _) => .error (.invalidLength 1 "struct Message with 2 elements")
  | (some payload, rest) =>
    let rest ← closeArray rest
    .ok ({ context, payload }, rest)

theorem readArray_eq (bytes : Bytes) :
    readArray bytes = nextItem true expectString bytes >>= fun p =>
      match p.1 with
      | none => .error (.invalidLength 0 "struct Message with 2 elements")
      | some context => readSecond context p.2 := by
  rw [readArray]
  cases nextItem true expectString bytes with
  | error e => rfl
  | ok p =>
      obtain ⟨context, rest⟩ := p
      cases context with
      | none => rfl
      | some context => rfl

theorem skipSpace_padded {d : Document} {text : Bytes} (h : Padded d text) (rest : Bytes) :
    ∃ b bs, d.OpensWith b ∧ skipSpace (text ++ rest) = b :: bs := by
  obtain ⟨ws, b, bs, hws, hb, rfl⟩ := h.opens
  refine ⟨b, bs ++ rest, hb, ?_⟩
  rw [List.append_assoc, skipSpace_append hws]
  exact skipSpace_cons hb.startsValue.1 _

/-- The second item is the payload; no third may follow. -/
theorem readSecond_item {context : String} {d : Document} {text : Bytes} (h : Padded d text)
    {ws : Bytes} (hws : Spaces ws) {b : UInt8}
    (hb : b = closeBracket ∨ b = comma) (rest : Bytes) :
    (readSecond context (ws ++ comma :: (text ++ b :: rest))).toOption =
      if b = closeBracket then
        (d.within? payloadDepth).map fun payload => ({ context, payload }, rest)
      else none := by
  have hends : EndsNumber (b :: rest) := by
    apply endsNumber_cons
    rcases hb with rfl | rfl <;> decide
  obtain ⟨after, hafter, hread⟩ := value_padded h hends
  obtain ⟨c, cs, hc, hskip⟩ := skipSpace_padded h (b :: rest)
  rw [readSecond, nextItem_comma hws hskip hc.startsValue.2, toOption_bind, toOption_bind, hread]
  cases d.within? payloadDepth with
  | none =>
      simp only [Option.map_none, ite_self]
      rfl
  | some payload =>
      change (closeArray (after ++ b :: rest) >>= _).toOption = _
      rw [closeArray, skipSpace_append hafter]
      rcases hb with rfl | rfl
      · rfl
      · rfl

theorem envelope?_array (x : Document) (xs : List Document) :
    envelope? (.array (x :: xs)) = x.string?.bind fun context =>
      match xs with
      | [second] => (second.within? payloadDepth).map fun payload => { context, payload }
      | _ => none := by
  match xs with
  | [] => cases x.string? <;> rfl
  | [_] => rfl
  | _ :: _ :: _ => cases x.string? <;> rfl

/-- The items of an envelope written as an array. -/
theorem readArray_texts {xs : List Document} {texts : List Bytes} (hne : xs ≠ [])
    (h : List.Forall₂ Padded xs texts) (rest : Bytes) :
    (readArray (separated texts ++ closeBracket :: rest)).toOption =
      (envelope? (.array xs)).map (·, rest) := by
  cases h with
  | nil => exact absurd rfl hne
  | @cons x text xs texts hx htexts =>
      rw [envelope?_array]
      have hfirst : ∀ b tail, EndsNumber (b :: tail) → ∃ ws, Spaces ws ∧
          (readArray (text ++ b :: tail)).toOption =
            x.string?.bind fun context => (readSecond context (ws ++ b :: tail)).toOption := by
        intro b tail hends
        obtain ⟨c, cs, hc, hskip⟩ := skipSpace_padded hx (b :: tail)
        obtain ⟨ws, hws, hread⟩ := expectString_padded hx hends
        refine ⟨ws, hws, ?_⟩
        rw [readArray_eq, nextItem_first expectString_ignoresSpace hskip hc.startsValue.2,
          toOption_bind, toOption_bind, hread]
        cases x.string? with
        | none => rfl
        | some context => rfl
      rw [Option.map_bind]
      cases htexts with
      | nil =>
          obtain ⟨ws, hws, hread⟩ := hfirst closeBracket rest (endsNumber_cons (by decide) rest)
          rw [separated, hread]
          congr 1
          funext context
          rw [readSecond, nextItem_close false _ hws]
          rfl
      | @cons y text' ys texts hy htexts =>
          obtain ⟨ws, hws, hread⟩ := hfirst comma
            (separated (text' :: texts) ++ closeBracket :: rest) (endsNumber_cons (by decide) _)
          have hsplit : separated (text :: text' :: texts) ++ closeBracket :: rest =
              text ++ comma :: (separated (text' :: texts) ++ closeBracket :: rest) := by
            simp [separated]
          rw [hsplit, hread]
          congr 1
          funext context
          cases htexts with
          | nil =>
              rw [separated, readSecond_item hy hws (.inl rfl), if_pos rfl]
              change _ = ((y.within? payloadDepth).map _).map _
              rw [Option.map_map]
              rfl
          | @cons z text'' zs texts =>
              have hthird : separated (text' :: text'' :: texts) ++ closeBracket :: rest =
                  text' ++ comma :: (separated (text'' :: texts) ++ closeBracket :: rest) := by
                simp [separated]
              rw [hthird]
              exact readSecond_item hy hws (.inr rfl) _

/-! ## Whole documents -/

theorem readEnvelope_scalar {d : Document} {text : Bytes} (h : Text d text) (hdepth : d.depth = 0)
    (rest : Bytes) : (readEnvelope (text ++ rest)).toOption = none := by
  obtain ⟨b, bs, hb, rfl⟩ := h.eq_cons
  obtain ⟨harray, hobject⟩ := hb.ne_open hdepth
  rw [List.cons_append, readEnvelope, skipSpace_cons hb.startsValue.1]
  split
  · next heq => exact absurd (List.cons.inj heq).1 hobject
  · next heq => exact absurd (List.cons.inj heq).1 harray
  · exact toOption_refuse _ _

/-- However a document is written and whatever follows it, the envelope is read that the
document holds. -/
theorem readEnvelope_text {d : Document} {text : Bytes} (h : Text d text) (rest : Bytes) :
    (readEnvelope (text ++ rest)).toOption = (envelope? d).map (·, rest) := by
  cases h with
  | null => exact readEnvelope_scalar .null rfl rest
  | boolTrue => exact readEnvelope_scalar .boolTrue rfl rest
  | boolFalse => exact readEnvelope_scalar .boolFalse rfl rest
  | number n => exact readEnvelope_scalar (.number n) rfl rest
  | string h => exact readEnvelope_scalar (.string h) rfl rest
  | @emptyArray ws hws =>
      rw [List.cons_append, List.append_assoc, readEnvelope, skipSpace_cons (by decide)]
      change (readArray (ws ++ closeBracket :: rest)).toOption = _
      rw [readArray_eq, nextItem_close true _ hws]
      rfl
  | @array xs texts hne hxs =>
      rw [List.cons_append, List.append_assoc, readEnvelope, skipSpace_cons (by decide)]
      exact readArray_texts hne hxs rest
  | @emptyObject ws hws =>
      rw [List.cons_append, List.append_assoc, readEnvelope, skipSpace_cons (by decide)]
      change (objectMembers string field {} (ws ++ closeBrace :: rest) >>= _).toOption = _
      rw [objectMembers_empty hws]
      rfl
  | @object ms texts hne hms =>
      have hreads : List.Forall₂ (fun m p => ∀ fields,
          Reads (member string field fields) (fields.member? m) p) ms texts :=
        hms.imp fun _ _ hp => member_field hp
      have hopens := forall_right_of_forall₂ hms fun m p hp => hp.opens
      have hmembers := objectMembers_texts hne hopens hreads {} rest
      rw [List.cons_append, List.append_assoc, readEnvelope, skipSpace_cons (by decide)]
      change (objectMembers string field {} (separated texts ++ closeBrace :: rest) >>= fun p =>
        p.1.message >>= fun m => .ok (m, p.2)).toOption = _
      rw [toOption_bind, hmembers, envelope?]
      cases ms.foldlM Fields.member? {} with
      | none => rfl
      | some fields =>
          change (fields.message >>= fun m => Except.ok (m, rest)).toOption =
            fields.message.toOption.map (·, rest)
          cases fields.message with
          | error e => rfl
          | ok m => rfl

/-! ## What is received -/

theorem readEnvelope_ignoresSpace : IgnoresSpace readEnvelope := by
  intro bytes
  rw [readEnvelope, readEnvelope, skipSpace_skipSpace]

/-- What is received when more bytes follow a document. -/
theorem toOption_ofBytes {d : Document} {bytes : Bytes} (h : Padded d bytes)
    (more : Bytes) :
    (ofBytes (bytes ++ more)).toOption = if Spaces more then envelope? d else none := by
  cases h with
  | @mk d before text after hbefore h hafter =>
      have hread : (readEnvelope (before ++ (text ++ after) ++ more)).toOption =
          (envelope? d).map (·, after ++ more) := by
        rw [← readEnvelope_ignoresSpace, List.append_assoc, List.append_assoc,
          skipSpace_append hbefore, readEnvelope_ignoresSpace]
        exact readEnvelope_text h _
      have hend : (skipSpace (after ++ more)).isEmpty = true ↔ Spaces more := by
        rw [skipSpace_append hafter, List.isEmpty_iff, skipSpace, List.dropWhile_eq_nil_iff]
        rfl
      rw [ofBytes, toOption_mapError, document, toOption_bind, hread]
      cases envelope? d with
      | none =>
          rw [ite_self]
          rfl
      | some m =>
          change (if (skipSpace (after ++ more)).isEmpty then Except.ok m else _).toOption = _
          by_cases hmore : Spaces more
          · rw [if_pos (hend.2 hmore), if_pos hmore]
            rfl
          · rw [if_neg (mt hend.1 hmore), if_neg hmore]
            rfl

end Message

end GossipDirectory
