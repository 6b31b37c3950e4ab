import GossipDirectory.Proofs.Envelope.DocumentRead
import GossipDirectory.Proofs.Json.WrittenText

/-!
# Which documents are envelopes

A received document is an envelope exactly if it is an object with one context, which is a string,
and one payload, or an array of a string and a payload, and the strings that are read pair their
surrogates: the names of all members, the context and the strings of the payload. How the document
is laid out and spelled, where its members stand and what the others hold makes no difference.

## Implementation notes

Which lists of members fill both fields is a matter of counting the members with the two names: what
was read and what is still to come stays the same from member to member.
-/

namespace GossipDirectory

namespace Message

open Json

/-- The values of the members with a name. -/
def named (name : String) (ms : List (Units × Document)) : List Document :=
  (ms.filter (·.1.text? = some name)).map (·.2)

/-- The documents with the shape of an envelope. -/
inductive EnvelopeShaped : Document → Prop
  | object {ms : List (Units × Document)} {context : Units} {payload : Document}
      (hcontext : named "Context" ms = [.string context])
      (hpayload : named "Payload" ms = [payload]) : EnvelopeShaped (.object ms)
  | array {context : Units} {payload : Document} :
      EnvelopeShaped (.array [.string context, payload])

/-- Every surrogate in the strings that are read of an envelope is half of a pair. Of a member that
is neither context nor payload only the name is read. -/
def ReadPaired : Document → Prop
  | .object ms => (∀ m ∈ ms, m.1.text?.isSome) ∧
    ∀ name ∈ ["Context", "Payload"], ∀ d ∈ named name ms, d.Paired
  | .array xs => ∀ x ∈ xs, x.Paired
  | _ => True

/-- The documents that carry an envelope. -/
inductive Carries : Document → Message → Prop
  | object {ms : List (Units × Document)} {m : Message} (hnames : ∀ m ∈ ms, m.1.text?.isSome)
      (hcontext : (named "Context" ms).map Document.value? = [some (.string m.context)])
      (hpayload : (named "Payload" ms).map Document.value? = [some m.payload]) :
      Carries (.object ms) m
  | array {context payload : Document} {m : Message}
      (hcontext : context.value? = some (.string m.context))
      (hpayload : payload.value? = some m.payload) : Carries (.array [context, payload]) m

/-! ## Counting members -/

theorem named_cons (name : String) (m : Units × Document) (ms : List (Units × Document)) :
    named name (m :: ms) =
      if m.1.text? = some name then m.2 :: named name ms else named name ms := by
  by_cases h : m.1.text? = some name
  · simp [named, h]
  · simp [named, h]

/-- The contexts that were or will be read. -/
def Fields.contexts (fields : Fields) (ms : List (Units × Document)) : List (Option Value) :=
  fields.context.toList.map (some <| .string ·) ++
    (named "Context" ms).map (Document.within? payloadDepth)

/-- The payloads that were or will be read. -/
def Fields.payloads (fields : Fields) (ms : List (Units × Document)) : List (Option Value) :=
  fields.payload.toList.map some ++ (named "Payload" ms).map (Document.within? payloadDepth)

/-- A member that the step accepts has a name and leaves the contexts and payloads as they are. -/
theorem Fields.member?_eq_some {fields after : Fields} {m : Units × Document}
    (h : fields.member? m = some after) (ms : List (Units × Document)) :
    m.1.text?.isSome ∧ after.contexts ms = fields.contexts (m :: ms) ∧
      after.payloads ms = fields.payloads (m :: ms) := by
  obtain ⟨name, hname, h⟩ := Option.bind_eq_some_iff.1 h
  refine ⟨hname ▸ rfl, ?_⟩
  simp only [contexts, payloads, named_cons, hname, Option.some_inj]
  rw [named?] at h
  by_cases hcontext : name = "Context"
  · subst hcontext
    rw [if_pos rfl] at h
    split at h
    · cases h
    · next hnone =>
        rw [Option.not_isSome_iff_eq_none] at hnone
        obtain ⟨s, hs, rfl⟩ := Option.map_eq_some_iff.1 h
        simp [hnone, Document.within?_eq_string.2 hs]
  · rw [if_neg hcontext] at h
    by_cases hpayload : name = "Payload"
    · subst hpayload
      rw [if_pos rfl] at h
      split at h
      · cases h
      · next hnone =>
          rw [Option.not_isSome_iff_eq_none] at hnone
          obtain ⟨v, hv, rfl⟩ := Option.map_eq_some_iff.1 h
          simp [hnone, hv]
    · rw [if_neg hpayload] at h
      cases h
      simp [hcontext, hpayload]

/-- A member that the step refuses has no text for a name, or it is a second context or payload, or
one that stands for no value, or a context that is no string. -/
theorem Fields.member?_eq_none {fields : Fields} {m : Units × Document}
    (h : fields.member? m = none) (hm : m.1.text?.isSome) (ms : List (Units × Document))
    (context : String) (payload : Value) :
    ¬ (fields.contexts (m :: ms) = [some (.string context)] ∧
      fields.payloads (m :: ms) = [some payload]) := by
  obtain ⟨name, hname⟩ := Option.isSome_iff_exists.1 hm
  simp only [contexts, payloads, named_cons, hname, Option.some_inj]
  rw [member?, hname, Option.bind_some, named?] at h
  rintro ⟨hcontexts, hpayloads⟩
  by_cases hcontext : name = "Context"
  · rw [if_pos hcontext] at h hcontexts
    cases hc : fields.context with
    | some c => simp [hc] at hcontexts
    | none =>
        rw [hc] at h hcontexts
        have hv := (List.cons.inj hcontexts).1
        rw [Document.within?_eq_string] at hv
        rw [hv] at h
        cases h
  · rw [if_neg hcontext] at h
    by_cases hpayload : name = "Payload"
    · rw [if_pos hpayload] at h hpayloads
      cases hp : fields.payload with
      | some p => simp [hp] at hpayloads
      | none =>
          rw [hp] at h hpayloads
          have hv : m.2.within? payloadDepth = some payload := (List.cons.inj hpayloads).1
          rw [hv] at h
          cases h
    · rw [if_neg hpayload] at h
      cases h

/-- The members fill both fields exactly if each is there once. -/
theorem foldlM_member?_iff {ms : List (Units × Document)} {fields : Fields} {context : String}
    {payload : Value} :
    ms.foldlM Fields.member? fields = some { context := some context, payload := some payload } ↔
      (∀ m ∈ ms, m.1.text?.isSome) ∧ fields.contexts ms = [some (.string context)] ∧
        fields.payloads ms = [some payload] := by
  induction ms generalizing fields with
  | nil =>
      obtain ⟨c, p⟩ := fields
      cases c <;> cases p <;> simp [Fields.contexts, Fields.payloads, named]
  | cons m ms ih =>
      rw [List.foldlM_cons, List.forall_mem_cons]
      cases hm : fields.member? m with
      | none =>
          refine ⟨nofun, ?_⟩
          rintro ⟨⟨hname, -⟩, h⟩
          exact absurd h (Fields.member?_eq_none hm hname ms context payload)
      | some after =>
          obtain ⟨hname, hcontexts, hpayloads⟩ := Fields.member?_eq_some hm ms
          rw [← hcontexts, ← hpayloads, and_iff_right hname]
          exact ih

theorem Fields.toOption_message_eq_some {fields : Fields} {m : Message} :
    fields.message.toOption = some m ↔
      fields = { context := some m.context, payload := some m.payload } := by
  obtain ⟨c, p⟩ := fields
  obtain ⟨context, payload⟩ := m
  cases c <;> cases p <;> simp [message, Except.toOption]

theorem envelope?_object {ms : List (Units × Document)} {m : Message} :
    envelope? (.object ms) = some m ↔ (∀ m ∈ ms, m.1.text?.isSome) ∧
      (named "Context" ms).map (Document.within? payloadDepth) = [some (.string m.context)] ∧
      (named "Payload" ms).map (Document.within? payloadDepth) = [some m.payload] := by
  have hfold : envelope? (.object ms) = some m ↔ ms.foldlM Fields.member? {} =
      some { context := some m.context, payload := some m.payload } := by
    rw [envelope?, Option.bind_eq_some_iff]
    simp only [Fields.toOption_message_eq_some]
    constructor
    · rintro ⟨fields, hfields, rfl⟩
      exact hfields
    · intro h
      exact ⟨_, h, rfl⟩
  rw [hfold, foldlM_member?_iff]
  rfl

theorem map_within?_named {ms : List (Units × Document)}
    (hdepth : (Document.object ms).depth ≤ nestingLimit) (name : String) :
    (named name ms).map (Document.within? payloadDepth) = (named name ms).map Document.value? := by
  have hvalues := Document.depthMembers_le_iff.1 (Nat.le_of_succ_le_succ hdepth)
  refine List.map_congr_left fun d hd => Document.within?_of_depth_le ?_
  obtain ⟨m, hm, rfl⟩ := List.mem_map.1 hd
  exact hvalues m (List.mem_of_mem_filter hm)

theorem within?_item {xs : List Document} (hdepth : (Document.array xs).depth ≤ nestingLimit)
    {x : Document} (hx : x ∈ xs) : x.within? payloadDepth = x.value? :=
  Document.within?_of_depth_le
    (Document.depthItems_le_iff.1 (Nat.le_of_succ_le_succ hdepth) x hx)

/-- A document within the limit is read as an envelope exactly if it carries it. -/
theorem envelope?_eq_some {d : Document} (hdepth : d.depth ≤ nestingLimit) {m : Message} :
    envelope? d = some m ↔ Carries d m := by
  constructor
  · intro h
    cases d with
    | object ms =>
        rw [envelope?_object, map_within?_named hdepth, map_within?_named hdepth] at h
        exact .object h.1 h.2.1 h.2.2
    | array xs =>
        cases xs with
        | nil => cases h
        | cons x xs =>
            rw [envelope?_array, Option.bind_eq_some_iff] at h
            obtain ⟨context, hcontext, h⟩ := h
            split at h
            · obtain ⟨payload, hpayload, rfl⟩ := Option.map_eq_some_iff.1 h
              rw [within?_item hdepth (by simp)] at hpayload
              exact .array (Document.value?_eq_string.2 hcontext) hpayload
            · cases h
    | _ => cases h
  · intro h
    cases h with
    | object hnames hcontext hpayload =>
        rw [envelope?_object, map_within?_named hdepth, map_within?_named hdepth]
        exact ⟨hnames, hcontext, hpayload⟩
    | array hcontext hpayload =>
        rw [envelope?, Document.value?_eq_string.1 hcontext, within?_item hdepth (by simp), hpayload]
        rfl

/-! ## What is received -/

theorem ofBytes_eq_ok_iff {d : Document} {bytes : Bytes} (h : Padded d bytes)
    (hdepth : d.depth ≤ nestingLimit) (m : Message) : ofBytes bytes = .ok m ↔ Carries d m := by
  have hread := toOption_ofBytes h []
  rw [List.append_nil, if_pos spaces_nil] at hread
  rw [← envelope?_eq_some hdepth, ← hread]
  constructor
  · intro hok
    rw [hok]
    rfl
  · exact eq_ok_of_toOption

/-- What members an object has besides contexts and payloads makes no difference, as long as their
names are texts. -/
theorem Carries.of_named_perm {ms ms' : List (Units × Document)}
    (hnames : ∀ m ∈ ms', m.1.text?.isSome)
    (h : ∀ name ∈ ["Context", "Payload"],
      ((named name ms).map Document.value?).Perm ((named name ms').map Document.value?))
    {m : Message} (hm : Carries (.object ms) m) : Carries (.object ms') m := by
  cases hm with
  | object _ hcontext hpayload =>
      have hcontexts := h "Context" (by decide)
      have hpayloads := h "Payload" (by decide)
      rw [hcontext, List.singleton_perm] at hcontexts
      rw [hpayload, List.singleton_perm] at hpayloads
      exact .object hnames hcontexts.symm hpayloads.symm

theorem inRange_of_mem_named {ms : List (Units × Document)} (h : (Document.object ms).InRange)
    {name : String} {d : Document} (hd : d ∈ named name ms) : d.InRange := by
  obtain ⟨m, hm, rfl⟩ := List.mem_map.1 hd
  exact (Document.allMembers_iff.1 h m (List.mem_of_mem_filter hm)).2

/-- Of the documents whose numerals are in range, those carry an envelope that have its shape and
pair the surrogates of the strings that are read. -/
theorem exists_carries_iff {d : Document} (hrange : d.InRange) :
    (∃ m, Carries d m) ↔ EnvelopeShaped d ∧ ReadPaired d := by
  constructor
  · rintro ⟨m, h⟩
    cases h with
    | @object ms m hnames hcontext hpayload =>
        obtain ⟨c, hc, hcvalue⟩ := List.map_eq_singleton_iff.1 hcontext
        obtain ⟨p, hp, hpvalue⟩ := List.map_eq_singleton_iff.1 hpayload
        obtain ⟨units, rfl, -⟩ :=
          Document.string?_eq_some.1 (Document.value?_eq_string.1 hcvalue)
        refine ⟨.object hc hp, hnames, ?_⟩
        have hcpaired := (Document.isSome_value?_iff _).1 (Option.isSome_of_eq_some hcvalue)
        have hppaired := (Document.isSome_value?_iff _).1 (Option.isSome_of_eq_some hpvalue)
        simp only [List.forall_mem_cons, hc, hp]
        exact ⟨⟨hcpaired.1, nofun⟩, ⟨hppaired.1, nofun⟩, nofun⟩
    | array hcontext hpayload =>
        obtain ⟨units, rfl, -⟩ :=
          Document.string?_eq_some.1 (Document.value?_eq_string.1 hcontext)
        have hcpaired := (Document.isSome_value?_iff _).1 (Option.isSome_of_eq_some hcontext)
        have hppaired := (Document.isSome_value?_iff _).1 (Option.isSome_of_eq_some hpayload)
        exact ⟨.array, List.forall_mem_cons.2 ⟨hcpaired.1, List.forall_mem_singleton.2 hppaired.1⟩⟩
  · rintro ⟨hshaped, hpaired⟩
    cases hshaped with
    | @object ms context payload hcontext hpayload =>
        obtain ⟨hnames, hread⟩ := hpaired
        have hc := hread "Context" (by decide) (.string context) (by simp [hcontext])
        have hmem : payload ∈ named "Payload" ms := by simp [hpayload]
        have hp := hread "Payload" (by decide) payload hmem
        have hprange := inRange_of_mem_named hrange hmem
        obtain ⟨s, hs⟩ := Option.isSome_iff_exists.1 (hc : context.text?.isSome)
        obtain ⟨v, hv⟩ := Option.isSome_iff_exists.1
          ((Document.isSome_value?_iff payload).2 ⟨hp, hprange⟩)
        refine ⟨{ context := s, payload := v }, .object hnames ?_ ?_⟩
        · rw [hcontext, List.map_singleton, Document.value?, hs, Option.map_some]
        · rw [hpayload, List.map_singleton, hv]
    | @array context payload =>
        have hc := hpaired (.string context) List.mem_cons_self
        have hp := hpaired payload (List.mem_cons_of_mem _ List.mem_cons_self)
        have hprange : payload.InRange := (Document.allItems_iff.1 hrange) payload
          (List.mem_cons_of_mem _ List.mem_cons_self)
        obtain ⟨s, hs⟩ := Option.isSome_iff_exists.1 (hc : context.text?.isSome)
        obtain ⟨v, hv⟩ := Option.isSome_iff_exists.1
          ((Document.isSome_value?_iff payload).2 ⟨hp, hprange⟩)
        refine ⟨{ context := s, payload := v }, .array ?_ hv⟩
        rw [Document.value?, hs, Option.map_some]

/-- A document is received as an envelope exactly if it carries it, whatever text of the document
arrives, and nothing but white space may follow. If its numerals are in range, it is received
exactly if it has the shape of an envelope and the strings that are read pair their surrogates.
Neither the order of its members nor those besides context and payload make a difference. In the
payload the last of several members with one name counts, and the order of members with distinct
names does not. -/
theorem received_iff_carries :
    (∀ (d : Document) (bytes : Bytes), Padded d bytes → d.depth ≤ nestingLimit →
      ∀ m, ofBytes bytes = .ok m ↔ Carries d m) ∧
    (∀ (d : Document) (bytes : Bytes), Padded d bytes → d.depth ≤ nestingLimit → d.InRange →
      ((∃ m, ofBytes bytes = .ok m) ↔ EnvelopeShaped d ∧ ReadPaired d)) ∧
    (∀ (d : Document) (bytes more : Bytes), Padded d bytes → ¬ Spaces more →
      ∃ cause, ofBytes (bytes ++ more) = .error cause) ∧
    (∀ (ms ms' : List (Units × Document)) (bytes bytes' : Bytes), Padded (.object ms) bytes →
      Padded (.object ms') bytes' → (Document.object ms).depth ≤ nestingLimit →
      (Document.object ms').depth ≤ nestingLimit → (∀ m ∈ ms, m.1.text?.isSome) →
      (∀ m ∈ ms', m.1.text?.isSome) →
      (∀ name ∈ ["Context", "Payload"],
        ((named name ms).map Document.value?).Perm ((named name ms').map Document.value?)) →
      ∀ m, ofBytes bytes = .ok m ↔ ofBytes bytes' = .ok m) ∧
    (∀ (ms : List (Units × Document)) (read : List (String × Value)),
      Document.members? ms = some read → ∃ v, (Document.object ms).value? = some v ∧
        ∀ name, v.member? name = lookup name read.reverse) ∧
    (∀ ms ms' : List (Units × Document), ms.Perm ms' → (ms.map (·.1.text?)).Nodup →
      (Document.object ms).value? = (Document.object ms').value?) := by
  refine ⟨fun _ _ => ofBytes_eq_ok_iff, ?_, ?_, ?_, fun _ _ => Document.member?_of_members?,
    fun _ _ => Document.value?_object_perm⟩
  · intro d bytes h hdepth hrange
    rw [← exists_carries_iff hrange]
    exact exists_congr fun m => ofBytes_eq_ok_iff h hdepth m
  · intro d bytes more h hmore
    have hread := toOption_ofBytes h more
    rw [if_neg hmore] at hread
    cases hof : ofBytes (bytes ++ more) with
    | error cause => exact ⟨cause, rfl⟩
    | ok m =>
        rw [hof] at hread
        cases hread
  · intro ms ms' bytes bytes' h h' hdepth hdepth' hnames hnames' hperm m
    rw [ofBytes_eq_ok_iff h hdepth, ofBytes_eq_ok_iff h' hdepth']
    exact ⟨.of_named_perm hnames' hperm, .of_named_perm hnames fun name hn => (hperm name hn).symm⟩

/-- An escape of half a surrogate pair. -/
def loneText : Bytes :=
  [quote, backslash, lowerU, 100, 56, 48, 48, quote]

theorem stringText_loneText : StringText [0xD800] loneText :=
  .mk (@UnitsText.escape 0xD800 [100, 56, 48, 48] _ _ rfl (by decide) .nil)

/-- A document that has its payload first, with a repeated name, and a member that is not looked
into. -/
def unusual : Document :=
  .object [(.ofText "Payload",
      .object [(.ofText "b", .null), (.ofText "a", .bool true), (.ofText "b", .bool false)]),
    (.ofText "x", .string [0xD800]), (.ofText "Context", .string (.ofText "c"))]

/-- A text of the document, with white space and an escaped letter in the name of the context. -/
def unusualText : Bytes :=
  [32] ++ ((openBrace :: (separated
    [memberBytes "Payload" (openBrace :: (separated [memberBytes "b" [lowerN, 117, 108, 108],
      memberBytes "a" [lowerT, 114, 117, 101], memberBytes "b" [lowerF, 97, 108, 115, 101]] ++
      [closeBrace])),
    memberBytes "x" loneText,
    [10] ++ (quote :: ([backslash, lowerU, 48, 48, 52, 51, 111, 110, 116, 101, 120, 116] ++
      [quote]) ++ ([32] ++ colon :: ([32] ++ (stringBytes "c" ++ []))))] ++
    [closeBrace])) ++ [10])

theorem padded_unusual : Padded unusual unusualText := by
  have hspace : Spaces [32] := by decide
  have hline : Spaces [10] := by decide
  have hrest : UnitsText (['o', 'n', 't', 'e', 'x', 't'].flatMap unitsOf)
      [111, 110, 116, 101, 120, 116] :=
    .plain (by decide) (by decide) (by decide) (.plain (by decide) (by decide) (by decide)
      (.plain (by decide) (by decide) (by decide) (.plain (by decide) (by decide) (by decide)
        (.plain (by decide) (by decide) (by decide)
          (.plain (by decide) (by decide) (by decide) .nil)))))
  have hname : StringText (.ofText "Context") (quote ::
      ([backslash, lowerU, 48, 48, 52, 51, 111, 110, 116, 101, 120, 116] ++ [quote])) :=
    .mk (@UnitsText.escape 0x43 [48, 48, 52, 51] _ _ rfl (by decide) hrest)
  have hcontext := MemberText.mk hline hname hspace
    (.mk hspace (.string (stringText_stringBytes "c")) spaces_nil)
  have hpayload := Text.object (List.cons_ne_nil _ _)
    (.cons (memberText_memberBytes "b" .null) (.cons (memberText_memberBytes "a" .boolTrue)
      (.cons (memberText_memberBytes "b" .boolFalse) .nil)))
  exact .mk hspace (.object (List.cons_ne_nil _ _)
    (.cons (memberText_memberBytes "Payload" hpayload)
      (.cons (memberText_memberBytes "x" (.string stringText_loneText))
        (.cons hcontext .nil)))) hline

/-- Such a text is received with the last of the values under one name, as the plain text with the
same fields is. -/
theorem unusual_received :
    ofBytes unusualText = .ok
        { context := "c", payload := .object [("a", .bool true), ("b", .bool false)] } ∧
      (EnvelopeShaped unusual ∧ ReadPaired unusual) ∧
      (∃ cause, ofBytes (unusualText ++ [closeBrace]) = .error cause) ∧
      ofBytes (toBytes
          { context := "c", payload := .object [("b", .bool false), ("a", .bool true)] }) = .ok
        { context := "c", payload := .object [("a", .bool true), ("b", .bool false)] } ∧
      (∃ v, (Document.object [(.ofText "b", .null), (.ofText "b", .bool true)]).value? = some v ∧
        v.member? "b" = some (.bool true)) ∧
      (Document.object [(.ofText "b", .null), (.ofText "a", .null)]).value? =
        (Document.object [(.ofText "a", .null), (.ofText "b", .null)]).value? := by
  have hcarries : Carries unusual
      { context := "c", payload := .object [("a", .bool true), ("b", .bool false)] } :=
    .object (by decide) (by decide) (by decide)
  have hdepth : unusual.depth ≤ nestingLimit := by decide
  have hreceived := (received_iff_carries.1 _ _ padded_unusual hdepth _).2 hcarries
  have hrange : unusual.InRange := by
    simp [unusual, Document.InRange, Document.All, Document.AllMembers]
  have hplain : Padded (.object [(.ofText "Context", .string (.ofText "c")), (.ofText "Payload",
        .object [(.ofText "b", .bool false), (.ofText "a", .bool true)])])
      (toBytes { context := "c", payload := .object [("b", .bool false), ("a", .bool true)] }) := by
    have hpayload := Text.object (List.cons_ne_nil _ _)
      (.cons (memberText_memberBytes "b" .boolFalse)
        (.cons (memberText_memberBytes "a" .boolTrue) .nil))
    exact (Text.object (List.cons_ne_nil _ _)
      (.cons (memberText_memberBytes "Context" (.string (stringText_stringBytes "c")))
        (.cons (memberText_memberBytes "Payload" hpayload) .nil))).padded
  refine ⟨hreceived,
    (received_iff_carries.2.1 _ _ padded_unusual hdepth hrange).1 ⟨_, hreceived⟩,
    received_iff_carries.2.2.1 _ _ _ padded_unusual (by decide), ?_, ?_,
    received_iff_carries.2.2.2.2.2 _ _ (.swap _ _ _) (by decide)⟩
  · exact (received_iff_carries.2.2.2.1 _ _ _ _ padded_unusual hplain hdepth (by decide)
      (by decide) (by decide) (by decide) _).1 hreceived
  · obtain ⟨v, hv, hmember⟩ := received_iff_carries.2.2.2.2.1
      [(.ofText "b", .null), (.ofText "b", .bool true)] [("b", .null), ("b", .bool true)]
      (by decide)
    exact ⟨v, hv, (hmember "b").trans (by decide)⟩

/-- A document with half of a surrogate pair for the name of a member that is not looked into. -/
def loneName : Document :=
  .object [([0xD800], .null), (.ofText "Context", .string (.ofText "c")),
    (.ofText "Payload", .null)]

/-- A text of the document. -/
def loneNameText : Bytes :=
  openBrace :: (separated [loneText ++ colon :: [lowerN, 117, 108, 108],
    memberBytes "Context" (stringBytes "c"), memberBytes "Payload" [lowerN, 117, 108, 108]] ++
    [closeBrace])

/-- Such a document is not received, although it has the shape of an envelope, its numerals are in
range and it nests within the limit. -/
theorem loneName_refused :
    Padded loneName loneNameText ∧ loneName.depth ≤ nestingLimit ∧ loneName.InRange ∧
      EnvelopeShaped loneName ∧ ¬ ∃ m, ofBytes loneNameText = .ok m := by
  have hpadded : Padded loneName loneNameText :=
    (Text.object (List.cons_ne_nil _ _)
      (.cons (.mk spaces_nil stringText_loneText spaces_nil Text.null.padded)
        (.cons (memberText_memberBytes "Context" (.string (stringText_stringBytes "c")))
          (.cons (memberText_memberBytes "Payload" .null) .nil)))).padded
  have hdepth : loneName.depth ≤ nestingLimit := by decide
  refine ⟨hpadded, hdepth, ⟨⟨trivial, trivial⟩, ⟨trivial, trivial⟩, ⟨trivial, trivial⟩, trivial⟩,
    .object rfl rfl, ?_⟩
  rintro ⟨m, hm⟩
  cases (ofBytes_eq_ok_iff hpadded hdepth m).1 hm with
  | object hnames => exact absurd (hnames ([0xD800], .null) List.mem_cons_self) (by decide)

end Message

end GossipDirectory
