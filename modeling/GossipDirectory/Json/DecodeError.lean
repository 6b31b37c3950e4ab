import GossipDirectory.Json.Value
import GossipDirectory.Number.Shortest
import GossipDirectory.Text.Quoted

/-!
# Why a document does not decode

Either the bytes are no document at all, or the document does not have the expected shape; then the
first place that differs is reported.
-/

namespace GossipDirectory

namespace Json

/-- What stands where something else was expected. -/
inductive Unexpected
  | bool (b : Bool)
  | number (n : Number)
  | string (s : String)
  | null
  | sequence
  | map
  deriving DecidableEq, Repr

/-- The reason of a refusal. -/
inductive DecodeError
  /-- Not a document: bad syntax, bytes after its end, too deep nesting, a number out of range. -/
  | malformed
  | missingField (name : String)
  | duplicateField (name : String)
  | invalidType (found : Unexpected) (expected : String)
  | invalidLength (length : Nat) (expected : String)
  deriving DecidableEq, Repr

/-- Doubles are positional from five zeros after the point up to sixteen digits before it. -/
def doubleLayout : Shortest.Layout :=
  { lowest := -5, highest := 16 }

/-- The text of a number. -/
def Number.text : Number → String
  | .integer i => Decimal.signedText i.val
  | .double x => String.ofList (Shortest.text doubleLayout x)

/-- Names what was found. -/
def Unexpected.text : Unexpected → String
  | .bool b => "boolean `" ++ toString b ++ "`"
  | .number (.integer i) => "integer `" ++ (Number.integer i).text ++ "`"
  | .number (.double x) => "floating point `" ++ (Number.double x).text ++ "`"
  | .string s => "string " ++ Quoted.text s
  | .null => "null"
  | .sequence => "sequence"
  | .map => "map"

/-- The wording of a refusal. -/
def DecodeError.message : DecodeError → String
  | .malformed => "malformed document"
  | .missingField name => "missing field `" ++ name ++ "`"
  | .duplicateField name => "duplicate field `" ++ name ++ "`"
  | .invalidType found expected => "invalid type: " ++ found.text ++ ", expected " ++ expected
  | .invalidLength length expected =>
    "invalid length " ++ Decimal.text length ++ ", expected " ++ expected

/-- What a value is when it was not expected. -/
def Value.unexpected : Value → Unexpected
  | .null => .null
  | .bool b => .bool b
  | .number n => .number n
  | .string s => .string s
  | .array _ => .sequence
  | .object _ => .map

end Json

end GossipDirectory
