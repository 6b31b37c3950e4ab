import GossipDirectory.Envelope.Message

/-!
# Directory mutations

An envelope in one of two contexts adds or removes a directory entry. Its payload is an object with
the members `key`, `value` and, if wanted, `mode`, or an array of them in this order.
-/

namespace GossipDirectory

/-- A value under a key, with the label of its life time. -/
structure Entry where
  key : String
  value : String
  mode : String
  deriving DecidableEq, Repr

/-- A change of the directory. -/
inductive Mutation
  | add (entry : Entry)
  | remove (entry : Entry)
  deriving DecidableEq, Repr

/-- The context of an added entry. -/
def addContext : String := "directory.add"

/-- The context of a removed entry. -/
def removeContext : String := "directory.remove"

namespace Entry

open Json

/-- A payload value that has to be a string. -/
def text : Value → Except DecodeError String
  | .string s => .ok s
  | v => .error (.invalidType v.unexpected "a string")

/-- The fields read so far. -/
structure Fields where
  key : Option String := none
  value : Option String := none
  mode : Option String := none

/-- Takes over one member of a payload object. -/
def Fields.take (fields : Fields) (member : String × Value) : Except DecodeError Fields := do
  let (name, v) := member
  if name = "key" then
    if fields.key.isSome then .error (.duplicateField name)
    else
      let s ← text v
      .ok { fields with key := some s }
  else if name = "value" then
    if fields.value.isSome then .error (.duplicateField name)
    else
      let s ← text v
      .ok { fields with value := some s }
  else if name = "mode" then
    if fields.mode.isSome then .error (.duplicateField name)
    else
      let s ← text v
      .ok { fields with mode := some s }
  else .ok fields

/-- The entry that its fields make. -/
def Fields.entry (fields : Fields) : Except DecodeError Entry :=
  match fields.key, fields.value with
  | none, _ => .error (.missingField "key")
  | some _, none => .error (.missingField "value")
  | some key, some value => .ok { key, value, mode := fields.mode.getD "" }

/-- The entry that a payload array lists. -/
def ofItems (items : List Value) : Except DecodeError Entry := do
  let tooShort (n : Nat) := DecodeError.invalidLength n "struct DirectoryEntry with 3 elements"
  match items with
  | [] => .error (tooShort 0)
  | [k] =>
    let _ ← text k
    .error (tooShort 1)
  | [k, v] =>
    let key ← text k
    let value ← text v
    .ok { key, value, mode := "" }
  | k :: v :: m :: rest =>
    let key ← text k
    let value ← text v
    let mode ← text m
    if rest.isEmpty then .ok { key, value, mode }
    else .error (.invalidLength items.length "fewer elements in array")

/-- The entry that a payload holds. -/
def ofPayload : Value → Except DecodeError Entry
  | .object members => do
    let fields ← members.foldlM Fields.take {}
    fields.entry
  | .array items => ofItems items
  | v => .error (.invalidType v.unexpected "struct DirectoryEntry")

/-- The payload of an entry. -/
def toPayload (e : Entry) : Value :=
  .object [("key", .string e.key), ("mode", .string e.mode), ("value", .string e.value)]

end Entry

namespace Mutation

/-- The entry that is added or removed. -/
def entry : Mutation → Entry
  | .add e => e
  | .remove e => e

/-- The context that tells the two kinds apart. -/
def context : Mutation → String
  | .add _ => addContext
  | .remove _ => removeContext

/-- The envelope of a mutation. -/
def toMessage (m : Mutation) : Message :=
  { context := m.context, payload := m.entry.toPayload }

end Mutation

/-- Decoders of payloads by context. -/
structure Registry where
  decoders : List (String × (Json.Value → Except Json.DecodeError Mutation))

namespace Registry

/-- No context has a decoder. -/
def empty : Registry :=
  { decoders := [] }

/-- Sets the decoder of a context. -/
def register (r : Registry) (context : String)
    (decode : Json.Value → Except Json.DecodeError Mutation) : Registry :=
  { decoders := Keyed.put context decode r.decoders }

/-- Whether a context has a decoder. -/
def knows (r : Registry) (context : String) : Bool :=
  Keyed.contains context r.decoders

/-- The mutation of an envelope; nothing when its context has no decoder. -/
def decode (r : Registry) (m : Message) : Option (Except Failure Mutation) :=
  (Keyed.get? m.context r.decoders).map fun decode =>
    (decode m.payload).mapError .serialization

/-- The decoder of additions. -/
def decodeAdd (payload : Json.Value) : Except Json.DecodeError Mutation :=
  (Entry.ofPayload payload).map .add

/-- The decoder of removals. -/
def decodeRemove (payload : Json.Value) : Except Json.DecodeError Mutation :=
  (Entry.ofPayload payload).map .remove

/-- Additions and removals. -/
def standard : Registry :=
  (empty.register addContext decodeAdd).register removeContext decodeRemove

end Registry

end GossipDirectory
