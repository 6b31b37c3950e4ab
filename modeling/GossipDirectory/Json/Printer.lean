import GossipDirectory.Json.DecodeError
import GossipDirectory.Json.Symbol

/-!
# Writing documents

Values are written without white space. A string escapes the quote, the backslash and the control
characters below space; every other character is written as it is.
-/

namespace GossipDirectory

namespace Json

/-- The lower case hexadecimal digit of a value below sixteen. -/
def hexDigitByte (d : Nat) : UInt8 :=
  UInt8.ofNat (if d < 10 then 48 + d else 87 + d)

/-- A character inside a written string. -/
def escapeChar (c : Char) : Bytes :=
  if c = '"' then [backslash, quote]
  else if c = '\\' then [backslash, backslash]
  else if c = '\x08' then [backslash, lowerB]
  else if c = '\x0c' then [backslash, lowerF]
  else if c = '\n' then [backslash, lowerN]
  else if c = '\r' then [backslash, lowerR]
  else if c = '\t' then [backslash, lowerT]
  else if c.toNat < 32 then
    [backslash, lowerU, zero, zero, hexDigitByte (c.toNat / 16), hexDigitByte (c.toNat % 16)]
  else String.utf8EncodeChar c

/-- A written string. -/
def stringBytes (s : String) : Bytes :=
  quote :: (s.toList.flatMap escapeChar ++ [quote])

/-- Pieces with commas between them. -/
def separated : List Bytes → Bytes
  | [] => []
  | [x] => x
  | x :: y :: rest => x ++ comma :: separated (y :: rest)

/-- A written member. -/
def memberBytes (name : String) (v : Bytes) : Bytes :=
  stringBytes name ++ colon :: v

mutual

/-- A written value. -/
def Value.toBytes : Value → Bytes
  | .null => [lowerN, 117, 108, 108]
  | .bool true => [lowerT, 114, 117, 101]
  | .bool false => [lowerF, 97, 108, 115, 101]
  | .number n => Utf8.encode n.text
  | .string s => stringBytes s
  | .array xs => openBracket :: (separated (itemBytes xs) ++ [closeBracket])
  | .object ms => openBrace :: (separated (memberListBytes ms) ++ [closeBrace])

/-- The written items of an array. -/
def itemBytes : List Value → List Bytes
  | [] => []
  | v :: rest => v.toBytes :: itemBytes rest

/-- The written members of an object. -/
def memberListBytes : List (String × Value) → List Bytes
  | [] => []
  | (k, v) :: rest => memberBytes k v.toBytes :: memberListBytes rest

end

/-- The text of a value. -/
def Value.text (v : Value) : String :=
  (Utf8.decode? v.toBytes).getD ""

/-- The escape of a 16-bit code unit. -/
def escapeUnit (n : Nat) : Bytes :=
  backslash :: lowerU :: [n / 4096, n / 256 % 16, n / 16 % 16, n % 16].map hexDigitByte

/-- A character of a written value in ASCII. One above the 16-bit range is a pair of units. -/
def asciiChar (c : Char) : Bytes :=
  let n := c.toNat
  if n < 128 then [UInt8.ofNat n]
  else if n < 0x10000 then escapeUnit n
  else escapeUnit (0xD800 + (n - 0x10000) / 1024) ++ escapeUnit (0xDC00 + (n - 0x10000) % 1024)

/-- The text of a value in ASCII. Other characters stand in strings only, so they can be escaped. -/
def Value.asciiText (v : Value) : String :=
  (Utf8.decode? (v.text.toList.flatMap asciiChar)).getD ""

end Json

end GossipDirectory
