import GossipDirectory.Error
import GossipDirectory.Json.Printer
import GossipDirectory.Json.Reader

/-!
# Envelopes

All traffic of a room consists of envelopes: a context label and a payload. An envelope is written
as an object with the members `Context` and `Payload`; reading also takes an array of the two and
ignores other members. Reading is the only check that traffic from other nodes has to pass.
-/

namespace GossipDirectory

/-- A labelled payload. -/
structure Message where
  context : String
  payload : Json.Value
  deriving DecidableEq, Repr, Inhabited

namespace Message

open Json

/-- The written form of an envelope. -/
def toBytes (m : Message) : Bytes :=
  openBrace :: (separated [memberBytes "Context" (stringBytes m.context),
    memberBytes "Payload" m.payload.toBytes] ++ [closeBrace])

/-- The fields read so far. -/
structure Fields where
  context : Option String := none
  payload : Option Value := none

/-- Reads one member of an envelope. -/
def field (fields : Fields) (name : String) (bytes : Bytes) :
    Except DecodeError (Fields × Bytes) := do
  if name = "Context" then
    if fields.context.isSome then .error (.duplicateField name)
    else
      let rest ← skipColon bytes
      let (s, rest) ← expectString rest
      .ok ({ fields with context := some s }, rest)
  else if name = "Payload" then
    if fields.payload.isSome then .error (.duplicateField name)
    else
      let rest ← skipColon bytes
      let (v, rest) ← value (nestingLimit - 1) rest
      .ok ({ fields with payload := some v }, rest)
  else
    let rest ← skipColon bytes
    let rest ← skipValue rest
    .ok (fields, rest)

/-- The envelope that its fields make. -/
def Fields.message (fields : Fields) : Except DecodeError Message :=
  match fields.context, fields.payload with
  | none, _ => .error (.missingField "Context")
  | some _, none => .error (.missingField "Payload")
  | some context, some payload => .ok { context, payload }

/-- Reads an envelope written as an array, after its opening bracket. -/
def readArray (bytes : Bytes) : Except DecodeError (Message × Bytes) := do
  let tooShort (n : Nat) := DecodeError.invalidLength n "struct Message with 2 elements"
  match ← nextItem true expectString bytes with
  | (none, _) => .error (tooShort 0)
  | (some context, rest) =>
    match ← nextItem false (value (nestingLimit - 1)) rest with
    | (none, _) => .error (tooShort 1)
    | (some payload, rest) =>
      let rest ← closeArray rest
      .ok ({ context, payload }, rest)

/-- Reads an envelope. -/
def readEnvelope (bytes : Bytes) : Except DecodeError (Message × Bytes) :=
  match skipSpace bytes with
  | openBrace :: rest => do
    let (fields, rest) ← objectMembers string field {} rest
    let m ← fields.message
    .ok (m, rest)
  | openBracket :: rest => readArray rest
  | rest => refuse "struct Message" rest

/-- The envelope that a byte string holds. -/
def ofBytes (bytes : Bytes) : Except Failure Message :=
  (document readEnvelope bytes).mapError .serialization

end Message

end GossipDirectory
