import GossipDirectory.Proofs.Envelope.DocumentRead
import GossipDirectory.Proofs.Json.WrittenText

/-!
# Envelopes read back

An envelope without doubles reads back to itself exactly if its payload nests at most 126 arrays
and objects, because the envelope itself takes one of the 127 levels. Every envelope that was ever
received is of this kind, so it survives being written and read again.
-/

namespace GossipDirectory

namespace Message

open Json

/-- What is written for an envelope is a text of a document of which it is read, unless its payload
nests too deep. -/
theorem exists_padded_toBytes {m : Message} (hi : m.payload.IntegersOnly)
    (ho : m.payload.Ordered) : ∃ d, Padded d m.toBytes ∧
      envelope? d = if m.payload.depth ≤ payloadDepth then some m else none := by
  obtain ⟨payload, htext, hvalue, hdepth⟩ := exists_text m.payload hi ho
  refine ⟨.object [(.ofText "Context", .string (.ofText m.context)),
    (.ofText "Payload", payload)], ?_, ?_⟩
  · have hcontext := memberText_memberBytes "Context" (.string (stringText_stringBytes m.context))
    have hpayload := memberText_memberBytes "Payload" htext
    exact (text_object (.cons hcontext (.cons hpayload .nil))).padded
  · have hfirst : Fields.member? {} (.ofText "Context", .string (.ofText m.context)) =
        some { context := some m.context } := by
      simp [Fields.member?, Fields.named?, text?_ofText, Document.string?]
    have hsecond : Fields.member? { context := some m.context } (.ofText "Payload", payload) =
        (payload.within? payloadDepth).map fun v =>
          { context := some m.context, payload := some v } := by
      simp [Fields.member?, Fields.named?, text?_ofText]
    rw [envelope?, List.foldlM_cons, hfirst]
    change (List.foldlM Fields.member? _ [(Units.ofText "Payload", payload)]).bind _ = _
    rw [List.foldlM_cons, hsecond, Document.within?, hvalue, hdepth]
    split <;> rfl

/-- What becomes of a written envelope is decided by the depth of its payload alone. -/
theorem toOption_ofBytes_toBytes {m : Message} (hi : m.payload.IntegersOnly)
    (ho : m.payload.Ordered) : (ofBytes m.toBytes).toOption =
      if m.payload.depth ≤ payloadDepth then some m else none := by
  obtain ⟨d, hpadded, henvelope⟩ := exists_padded_toBytes hi ho
  have hread := toOption_ofBytes hpadded []
  rwa [List.append_nil, if_pos spaces_nil, henvelope] at hread

theorem ofBytes_toBytes {m : Message} (hi : m.payload.IntegersOnly) (ho : m.payload.Ordered)
    (hdepth : m.payload.depth ≤ payloadDepth) : ofBytes m.toBytes = .ok m :=
  eq_ok_of_toOption <| by rw [toOption_ofBytes_toBytes hi ho, if_pos hdepth]

/-- An envelope is refused for what its bytes are. -/
theorem exists_of_toOption_ofBytes {bytes : Bytes} (h : (ofBytes bytes).toOption = none) :
    ∃ cause, ofBytes bytes = .error (.serialization cause) := by
  rw [ofBytes] at h ⊢
  cases hread : document readEnvelope bytes with
  | error cause => exact ⟨cause, rfl⟩
  | ok m =>
      rw [hread] at h
      cases h

/-! ## What reading returns -/

theorem field_payload_shaped {fields after : Fields} {name : String} {bytes rest : Bytes}
    (hf : ∀ v ∈ fields.payload, v.Shaped payloadDepth)
    (h : field fields name bytes = .ok (after, rest)) :
    ∀ v ∈ after.payload, v.Shaped payloadDepth := by
  simp only [field] at h
  split at h
  · split at h
    · cases h
    · rw [bind_eq_ok] at h
      obtain ⟨bytes', -, h⟩ := h
      rw [bind_eq_ok] at h
      obtain ⟨⟨s, bytes''⟩, -, h⟩ := h
      simp only [Except.ok.injEq, Prod.mk.injEq] at h
      obtain ⟨rfl, -⟩ := h
      exact hf
  · split at h
    · split at h
      · cases h
      · rw [bind_eq_ok] at h
        obtain ⟨bytes', -, h⟩ := h
        rw [bind_eq_ok] at h
        obtain ⟨⟨v, bytes''⟩, hv, h⟩ := h
        simp only [Except.ok.injEq, Prod.mk.injEq] at h
        obtain ⟨rfl, -⟩ := h
        rintro w ⟨⟩
        exact value_shaped hv
    · rw [bind_eq_ok] at h
      obtain ⟨bytes', -, h⟩ := h
      rw [bind_eq_ok] at h
      obtain ⟨bytes'', -, h⟩ := h
      simp only [Except.ok.injEq, Prod.mk.injEq] at h
      obtain ⟨rfl, -⟩ := h
      exact hf

theorem Fields.message_eq_ok {fields : Fields} {m : Message} (h : fields.message = .ok m) :
    fields.payload = some m.payload := by
  rw [message] at h
  split at h
  · cases h
  · cases h
  · next hp =>
      simp only [Except.ok.injEq] at h
      rw [hp, ← h]

theorem readArray_shaped {bytes rest : Bytes} {m : Message}
    (h : readArray bytes = .ok (m, rest)) : m.payload.Shaped payloadDepth := by
  simp only [readArray, bind_eq_ok] at h
  obtain ⟨⟨context, after⟩, -, h⟩ := h
  cases context with
  | none => cases h
  | some context =>
      simp only [bind_eq_ok] at h
      obtain ⟨⟨payload, after'⟩, hp, h⟩ := h
      cases payload with
      | none => cases h
      | some payload =>
          simp only [bind_eq_ok, Except.ok.injEq, Prod.mk.injEq] at h
          obtain ⟨rest', -, rfl, -⟩ := h
          obtain ⟨before, after'', hv⟩ := nextItem_eq_ok hp
          exact value_shaped hv

theorem readEnvelope_shaped {bytes rest : Bytes} {m : Message}
    (h : readEnvelope bytes = .ok (m, rest)) : m.payload.Shaped payloadDepth := by
  rw [readEnvelope] at h
  split at h
  · simp only [bind_eq_ok, Except.ok.injEq, Prod.mk.injEq] at h
    obtain ⟨⟨fields, after⟩, hf, m', hm, rfl, -⟩ := h
    have hall : ∀ v ∈ fields.payload, v.Shaped payloadDepth :=
      objectMembers_invariant (fun fields => ∀ v ∈ fields.payload, v.Shaped payloadDepth)
        (fun _ _ _ _ _ hs hstep => field_payload_shaped hs hstep) (by rintro v ⟨⟩) hf
    exact hall _ (Fields.message_eq_ok hm)
  · exact readArray_shaped h
  · exact absurd h refuse_ne_ok

/-- The payload of a received envelope is one that a written envelope can carry. -/
theorem payload_shaped {bytes : Bytes} {m : Message} (h : ofBytes bytes = .ok m) :
    m.payload.Shaped payloadDepth := by
  have hd : document readEnvelope bytes = .ok m := mapError_eq_ok.1 h
  simp only [document, bind_eq_ok] at hd
  obtain ⟨⟨m', rest⟩, hm, hd⟩ := hd
  split at hd
  · simp only [Except.ok.injEq] at hd
    subst hd
    exact readEnvelope_shaped hm
  · cases hd

/-! ## Round trip -/

/-- Writing an envelope and reading it gives it back exactly up to 126 levels of its payload, and a
refusal beyond; what was received once always reads back. -/
theorem reads_back_iff_depth_le :
    (∀ m : Message, m.payload.IntegersOnly → m.payload.Ordered →
      (ofBytes m.toBytes = .ok m ↔ m.payload.depth ≤ 126) ∧
      (126 < m.payload.depth → ∃ cause, ofBytes m.toBytes = .error (.serialization cause))) ∧
    (∀ (bytes : Bytes) (m : Message), ofBytes bytes = .ok m → m.payload.IntegersOnly →
      ofBytes m.toBytes = .ok m) := by
  refine ⟨fun m hi ho => ?_, fun bytes m h hi => ?_⟩
  · have hread := toOption_ofBytes_toBytes hi ho
    change (ofBytes m.toBytes).toOption = if m.payload.depth ≤ 126 then _ else _ at hread
    refine ⟨⟨fun hok => ?_, ofBytes_toBytes hi ho⟩, fun hdepth => ?_⟩
    · apply Decidable.byContradiction
      intro hdepth
      rw [if_neg hdepth, hok] at hread
      cases hread
    · rw [if_neg (Nat.not_le.2 hdepth)] at hread
      exact exists_of_toOption_ofBytes hread
  · obtain ⟨hordered, hdepth⟩ := payload_shaped h
    exact ofBytes_toBytes hi hordered hdepth

/-- An empty array inside `n` arrays of one item. -/
def nested : Nat → Value
  | 0 => .array []
  | n + 1 => .array [nested n]

theorem nested_shape (n : Nat) :
    (nested n).IntegersOnly ∧ (nested n).Ordered ∧ (nested n).depth = n + 1 := by
  induction n with
  | zero => exact ⟨trivial, trivial, rfl⟩
  | succ n ih =>
      refine ⟨⟨ih.1, trivial⟩, ⟨ih.2.1, trivial⟩, ?_⟩
      simp [nested, Value.depth, Value.depthItems, ih.2.2]

/-- At the limit an envelope reads back, also when it was received; one level more and it is
refused. -/
theorem nested_reads_back_at_limit :
    ofBytes (toBytes { context := "c", payload := nested 125 }) =
        .ok { context := "c", payload := nested 125 } ∧
      ∃ cause, ofBytes (toBytes { context := "c", payload := nested 126 }) =
        .error (.serialization cause) := by
  obtain ⟨hi, ho, hd⟩ := nested_shape 125
  obtain ⟨hi', ho', hd'⟩ := nested_shape 126
  have hfirst := ((reads_back_iff_depth_le.1 { context := "c", payload := nested 125 } hi ho).1).2
    (Nat.le_of_eq hd)
  refine ⟨reads_back_iff_depth_le.2 _ _ hfirst hi, ?_⟩
  exact (reads_back_iff_depth_le.1 { context := "c", payload := nested 126 } hi' ho').2
    (by rw [hd']; decide)

end Message

end GossipDirectory
