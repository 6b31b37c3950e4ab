import GossipDirectory.Envelope.Mutation
import GossipDirectory.Proofs.Envelope.RoundTrip

/-!
# Which envelopes are mutations

A payload is read as an entry exactly if it is an object whose key and value are strings and whose
mode is a string or missing, or an array of two or three strings. Its other members make no
difference. The standard registry reads an envelope as a mutation exactly if the context is the one
of the mutation and the payload lists its entry. So the bytes of a mutation are read as this
mutation and no other.

## Implementation notes

The reader takes over one member after the other. What it has read of a field, with the members that
are still to come, has to be what the field holds in the end.
-/

namespace GossipDirectory

namespace Entry

open Json

/-- The values of the members with a name. -/
def named (name : String) (ms : List (String × Value)) : List Value :=
  (ms.filter (·.1 = name)).map (·.2)

theorem named_cons (name : String) (m : String × Value) (ms : List (String × Value)) :
    named name (m :: ms) = if m.1 = name then m.2 :: named name ms else named name ms := by
  by_cases h : m.1 = name
  · simp [named, h]
  · simp [named, h]

/-- The values that a field can have been read from. -/
def written (field : Option String) : List Value :=
  (field.map Value.string).toList

/-- The payloads that list an entry. A mode that is missing is empty. -/
inductive Listed : Value → Entry → Prop
  | object {ms : List (String × Value)} {key value : String} (mode : Option String)
      (hkey : named "key" ms = [.string key])
      (hvalue : named "value" ms = [.string value])
      (hmode : named "mode" ms = written mode) :
      Listed (.object ms) { key, value, mode := mode.getD "" }
  | array {key value : String} (mode : Option String) :
      Listed (.array (.string key :: .string value :: written mode))
        { key, value, mode := mode.getD "" }

theorem text_eq_ok_iff {v : Value} {s : String} : text v = .ok s ↔ v = .string s := by
  cases v with
  | string t => simp [text]
  | _ => simp [text]

theorem written_inj {field field' : Option String} :
    written field = written field' ↔ field = field' := by
  cases field <;> cases field' <;> simp [written]

/-! ## Objects -/

/-- What a field holds after a member with its name. -/
def fill (field : Option String) (name : String) (v : Value) :
    Except DecodeError (Option String) :=
  if field.isSome then .error (.duplicateField name) else (text v).map some

/-- A member fits into its field if it is the only one, and a string. -/
theorem exists_fill_iff {field after : Option String} {name : String} {v : Value}
    {rest : List Value} :
    (∃ filled, fill field name v = .ok filled ∧ written filled ++ rest = written after) ↔
      written field ++ v :: rest = written after := by
  cases field with
  | some s => cases after <;> simp [fill, written]
  | none =>
      simp only [fill, Option.isSome_none, Bool.false_eq_true, if_false, map_eq_ok, text_eq_ok_iff]
      constructor
      · rintro ⟨_, ⟨s, rfl, rfl⟩, h⟩
        exact h
      · intro h
        cases after with
        | none => cases h
        | some s =>
            obtain ⟨rfl, hrest⟩ := List.cons.inj h
            exact ⟨some s, ⟨s, rfl, rfl⟩, congrArg (Value.string s :: ·) hrest⟩

theorem take_eq (fields : Fields) (m : String × Value) :
    fields.take m =
      if m.1 = "key" then (fill fields.key m.1 m.2).map fun key => { fields with key }
      else if m.1 = "value" then
        (fill fields.value m.1 m.2).map fun value => { fields with value }
      else if m.1 = "mode" then (fill fields.mode m.1 m.2).map fun mode => { fields with mode }
      else .ok fields := by
  obtain ⟨name, v⟩ := m
  simp only [Fields.take, fill]
  cases text v <;> split_ifs <;> rfl

/-- The members of an object fill the fields as far as each is written once. -/
theorem foldlM_take_eq_ok_iff {ms : List (String × Value)} {fields after : Fields} :
    ms.foldlM Fields.take fields = .ok after ↔
      written fields.key ++ named "key" ms = written after.key ∧
        written fields.value ++ named "value" ms = written after.value ∧
          written fields.mode ++ named "mode" ms = written after.mode := by
  induction ms generalizing fields with
  | nil =>
      obtain ⟨key, value, mode⟩ := fields
      obtain ⟨key', value', mode'⟩ := after
      simp [named, written_inj, pure, Except.pure]
  | cons m ms ih =>
      obtain ⟨name, v⟩ := m
      rw [List.foldlM_cons, bind_eq_ok, take_eq]
      simp only [ih, named_cons]
      by_cases hkey : name = "key"
      · subst hkey
        simp only [↓reduceIte, String.reduceEq, map_eq_ok]
        constructor
        · rintro ⟨_, ⟨filled, hfill, rfl⟩, hk, hv, hm⟩
          exact ⟨exists_fill_iff.1 ⟨filled, hfill, hk⟩, hv, hm⟩
        · rintro ⟨hk, hv, hm⟩
          obtain ⟨filled, hfill, hk⟩ := exists_fill_iff.2 hk
          exact ⟨_, ⟨filled, hfill, rfl⟩, hk, hv, hm⟩
      by_cases hvalue : name = "value"
      · subst hvalue
        simp only [↓reduceIte, String.reduceEq, map_eq_ok]
        constructor
        · rintro ⟨_, ⟨filled, hfill, rfl⟩, hk, hv, hm⟩
          exact ⟨hk, exists_fill_iff.1 ⟨filled, hfill, hv⟩, hm⟩
        · rintro ⟨hk, hv, hm⟩
          obtain ⟨filled, hfill, hv⟩ := exists_fill_iff.2 hv
          exact ⟨_, ⟨filled, hfill, rfl⟩, hk, hv, hm⟩
      by_cases hmode : name = "mode"
      · subst hmode
        simp only [↓reduceIte, String.reduceEq, map_eq_ok]
        constructor
        · rintro ⟨_, ⟨filled, hfill, rfl⟩, hk, hv, hm⟩
          exact ⟨hk, hv, exists_fill_iff.1 ⟨filled, hfill, hm⟩⟩
        · rintro ⟨hk, hv, hm⟩
          obtain ⟨filled, hfill, hm⟩ := exists_fill_iff.2 hm
          exact ⟨_, ⟨filled, hfill, rfl⟩, hk, hv, hm⟩
      simp [hkey, hvalue, hmode]

theorem Fields.entry_eq_ok_iff {fields : Fields} {e : Entry} :
    fields.entry = .ok e ↔
      fields.key = some e.key ∧ fields.value = some e.value ∧ fields.mode.getD "" = e.mode := by
  obtain ⟨key, value, mode⟩ := fields
  obtain ⟨k, v, m⟩ := e
  cases key <;> cases value <;> simp [entry]

theorem ofPayload_object_iff {ms : List (String × Value)} {e : Entry} :
    ofPayload (.object ms) = .ok e ↔ Listed (.object ms) e := by
  rw [ofPayload, bind_eq_ok]
  constructor
  · rintro ⟨⟨key, value, mode⟩, hfields, hentry⟩
    obtain ⟨hk, hv, hm⟩ := foldlM_take_eq_ok_iff.1 hfields
    obtain ⟨k, v, m⟩ := e
    obtain ⟨(rfl : key = some k), (rfl : value = some v), (rfl : mode.getD "" = m)⟩ :=
      Fields.entry_eq_ok_iff.1 hentry
    exact .object mode hk hv hm
  · intro h
    cases h with
    | object mode hkey hvalue hmode =>
        exact ⟨⟨some _, some _, mode⟩, foldlM_take_eq_ok_iff.2 ⟨hkey, hvalue, hmode⟩, rfl⟩

/-! ## Arrays -/

theorem ofPayload_array_iff {items : List Value} {e : Entry} :
    ofPayload (.array items) = .ok e ↔ Listed (.array items) e := by
  constructor
  · intro h
    rw [ofPayload] at h
    unfold ofItems at h
    split at h
    case h_1 => cases h
    case h_2 k =>
      obtain ⟨_, -, h⟩ := bind_eq_ok.1 h
      cases h
    case h_3 k v =>
      simp only [bind_eq_ok, text_eq_ok_iff] at h
      obtain ⟨key, rfl, value, rfl, h⟩ := h
      cases h
      exact .array none
    case h_4 k v m rest =>
      simp only [bind_eq_ok, text_eq_ok_iff] at h
      obtain ⟨key, rfl, value, rfl, mode, rfl, h⟩ := h
      split at h
      case isTrue hrest =>
        cases h
        rw [List.isEmpty_iff.1 hrest]
        exact .array (some mode)
      case isFalse => cases h
  · intro h
    cases h with
    | array mode => cases mode <;> rfl

/-- A payload is read as the entry that it lists. -/
theorem ofPayload_eq_ok_iff {v : Value} {e : Entry} : ofPayload v = .ok e ↔ Listed v e := by
  cases v with
  | object ms => exact ofPayload_object_iff
  | array items => exact ofPayload_array_iff
  | _ => exact ⟨nofun, nofun⟩

/-- The payload of an entry lists it. -/
theorem listed_toPayload (e : Entry) : Listed e.toPayload e :=
  .object (some e.mode) rfl rfl rfl

end Entry

/-! ## Envelopes -/

namespace Registry

variable {registry : Registry} {m : Message}

/-- A decoder that refuses a payload says what is wrong with it. -/
theorem exists_cause_of_decode {failure : Failure}
    (h : registry.decode m = some (.error failure)) : ∃ cause, failure = .serialization cause := by
  obtain ⟨decode, -, h⟩ := Option.map_eq_some_iff.1 h
  cases hdecode : decode m.payload with
  | ok mutation =>
      rw [hdecode] at h
      cases h
  | error cause =>
      rw [hdecode] at h
      cases h
      exact ⟨cause, rfl⟩

theorem decode_standard (m : Message) :
    standard.decode m =
      if m.context = addContext then some ((decodeAdd m.payload).mapError .serialization)
      else if m.context = removeContext then
        some ((decodeRemove m.payload).mapError .serialization)
      else none := by
  have hdecoders : standard.decoders =
      [(addContext, decodeAdd), (removeContext, decodeRemove)] := rfl
  unfold decode
  rw [hdecoders]
  simp only [Keyed.get?, eq_comm (b := m.context)]
  split_ifs <;> rfl

/-- The standard registry passes over an envelope in a context of its own. -/
theorem decode_standard_eq_none_iff :
    standard.decode m = none ↔ m.context ≠ addContext ∧ m.context ≠ removeContext := by
  rw [decode_standard]
  split_ifs with hadd hremove
  · simp [hadd]
  · simp [hremove]
  · simp [hadd, hremove]

/-- The standard registry reads an envelope as the mutation of its context and its entry. -/
theorem decode_standard_eq_ok_iff {mutation : Mutation} :
    standard.decode m = some (.ok mutation) ↔
      m.context = mutation.context ∧ Entry.Listed m.payload mutation.entry := by
  have hdiffer : addContext ≠ removeContext := by decide
  rw [decode_standard]
  split_ifs with hadd hremove
  · rw [hadd, Option.some_inj, mapError_eq_ok, decodeAdd, map_eq_ok]
    cases mutation <;> simp [Entry.ofPayload_eq_ok_iff, Mutation.context, Mutation.entry, hdiffer]
  · rw [hremove, Option.some_inj, mapError_eq_ok, decodeRemove, map_eq_ok]
    cases mutation <;>
      simp [Entry.ofPayload_eq_ok_iff, Mutation.context, Mutation.entry, hdiffer.symm]
  · cases mutation <;> simp [Mutation.context, hadd, hremove]

end Registry

/-! ## Mutations as bytes -/

namespace Mutation

/-- The envelope of a mutation can be written and read back. -/
theorem ofBytes_toMessage (m : Mutation) :
    Message.ofBytes m.toMessage.toBytes = .ok m.toMessage := by
  have hintegers : m.toMessage.payload.IntegersOnly := ⟨trivial, trivial, trivial, trivial⟩
  have hordered : m.toMessage.payload.Ordered := by
    refine ⟨?_, trivial, trivial, trivial, trivial⟩
    change ["key", "mode", "value"].Pairwise (· < ·)
    decide
  have hdepth : m.toMessage.payload.depth ≤ Message.payloadDepth := by
    change 1 ≤ Message.payloadDepth
    decide
  exact Message.ofBytes_toBytes hintegers hordered hdepth

theorem decode_toMessage (m : Mutation) : Registry.standard.decode m.toMessage = some (.ok m) :=
  Registry.decode_standard_eq_ok_iff.2 ⟨rfl, Entry.listed_toPayload m.entry⟩

/-- What reading the bytes of a mutation gives is recognized as this mutation, so the bytes tell
mutations apart. -/
theorem recognized_from_bytes :
    (∀ m : Mutation, ∃ message, Message.ofBytes m.toMessage.toBytes = .ok message ∧
      Registry.standard.decode message = some (.ok m)) ∧
    Function.Injective fun m : Mutation => m.toMessage.toBytes := by
  refine ⟨fun m => ⟨_, ofBytes_toMessage m, decode_toMessage m⟩, fun m m' h => ?_⟩
  have hmessage : m.toMessage = m'.toMessage := by
    apply Except.ok.inj
    rw [← ofBytes_toMessage m, ← ofBytes_toMessage m']
    exact congrArg Message.ofBytes h
  have hdecoded := decode_toMessage m
  rw [hmessage, decode_toMessage] at hdecoded
  exact (Except.ok.inj (Option.some.inj hdecoded)).symm

end Mutation

end GossipDirectory
