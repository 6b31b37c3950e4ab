/-!
# UTF-8 text as bytes

Messages, files and bus payloads are byte strings; names and values inside them are text.
Every text has one encoding, and reading it back gives the text (`decode?_encode`).
-/

namespace GossipDirectory

/-- A byte string. -/
abbrev Bytes := List UInt8

namespace Utf8

/-- The UTF-8 bytes of a text. -/
def encode (s : String) : Bytes :=
  s.toByteArray.data.toList

/-- The text that a byte string encodes, if it is well-formed UTF-8. -/
def decode? (bytes : Bytes) : Option String :=
  String.fromUTF8? ⟨bytes.toArray⟩

theorem decode?_encode (s : String) : decode? (encode s) = some s := by
  have h : (⟨s.toByteArray.data.toList.toArray⟩ : ByteArray) = s.toByteArray := by
    cases s with
    | ofByteArray b hb => cases b; simp
  simp only [decode?, encode, h, String.fromUTF8?, dif_pos s.isValidUTF8]
  rfl

end Utf8

end GossipDirectory
