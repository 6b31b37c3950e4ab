import GossipDirectory.Json.DecodeError
import GossipDirectory.Json.Symbol
import GossipDirectory.Text.Hex

/-!
# Reading documents

Every reader takes the bytes that are left and returns what it read together with the bytes after
it. Nesting is bounded: a value may enclose as many arrays and objects as its budget says. A value
that nobody asked for is skipped without a bound, and its strings and numbers are not looked into.

## Implementation notes

Repetition takes the number of remaining bytes as fuel, which is never used up: every item takes at
least one byte.
-/

namespace GossipDirectory

namespace Json

/-- A reader takes the bytes that are left; it answers what it read and the bytes after that. -/
abbrev Reader (α : Type) := Bytes → Except DecodeError (α × Bytes)

/-- The bytes from the next token on. -/
def skipSpace (bytes : Bytes) : Bytes :=
  bytes.dropWhile isSpace

/-- Expects the bytes of a word. -/
def word : Bytes → Bytes → Except DecodeError Bytes
  | [], rest => .ok rest
  | w :: ws, b :: rest => if w = b then word ws rest else .error .malformed
  | _ :: _, [] => .error .malformed

/-! ## Numbers -/

/-- Digits that extend a 64-bit significand: its new value, how many were taken, and the rest from
the first digit on that does not fit. -/
def significandDigits (value count : Nat) : Bytes → Nat × Nat × Bytes
  | [] => (value, count, [])
  | b :: rest =>
    match digit? b with
    | some d =>
      if value * 10 + d < UInt64.size then significandDigits (value * 10 + d) (count + 1) rest
      else (value, count, b :: rest)
    | none => (value, count, b :: rest)

/-- The digits at the front: how many, and the rest. -/
def dropDigits (count : Nat) : Bytes → Nat × Bytes
  | [] => (count, [])
  | b :: rest => if (digit? b).isSome then dropDigits (count + 1) rest else (count, b :: rest)

/-- Exponents are kept below this number, `2 ^ 31`. -/
def exponentBound : Nat := 2147483648

/-- Digits of a decimal exponent; nothing when the exponent reaches its bound. -/
def exponentDigits (value : Nat) : Bytes → Option Nat × Bytes
  | [] => (some value, [])
  | b :: rest =>
    match digit? b with
    | some d =>
      if value * 10 + d < exponentBound then exponentDigits (value * 10 + d) rest
      else (none, (dropDigits 0 rest).2)
    | none => (some value, b :: rest)

/-- Keeps an exponent within a signed 32-bit word. -/
def saturate (e : Int) : Int :=
  max (-exponentBound) (min e (exponentBound - 1))

/-- The double `significand · 10 ^ exponent`, if it is finite. -/
def scaled (negative : Bool) (significand : Nat) (exponent : Int) (rest : Bytes) :
    Except DecodeError (Number × Bytes) :=
  match Double.ofDecimal? negative significand exponent with
  | some x => .ok (.double x, rest)
  | none => .error .malformed

/-- The exponent part, after its letter. -/
def exponentPart (negative : Bool) (significand : Nat) (start : Int) (bytes : Bytes) :
    Except DecodeError (Number × Bytes) :=
  let (down, bytes) := match bytes with
    | plus :: rest => (false, rest)
    | minus :: rest => (true, rest)
    | _ => (false, bytes)
  match bytes with
  | b :: rest =>
    match digit? b with
    | none => .error .malformed
    | some d =>
      match exponentDigits d rest with
      | (some e, rest) =>
        scaled negative significand (saturate (if down then start - e else start + e)) rest
      | (none, rest) =>
        if significand ≠ 0 ∧ ¬ down then .error .malformed else scaled negative 0 0 rest
  | [] => .error .malformed

/-- An exponent part, if its letter follows. -/
def exponentOrEnd (negative : Bool) (significand : Nat) (exponent : Int) (bytes : Bytes) :
    Except DecodeError (Number × Bytes) :=
  match bytes with
  | lowerE :: rest => exponentPart negative significand exponent rest
  | upperE :: rest => exponentPart negative significand exponent rest
  | _ => scaled negative significand exponent bytes

/-- The fraction, after its point. -/
def fractionPart (negative : Bool) (significand : Nat) (start : Int) (bytes : Bytes) :
    Except DecodeError (Number × Bytes) :=
  let (value, count, rest) := significandDigits significand 0 bytes
  let (more, rest) := dropDigits 0 rest
  if count + more = 0 then .error .malformed
  else exponentOrEnd negative value (start - count) rest

/-- What follows the integer digits of a number. -/
def numberTail (negative : Bool) (significand : Nat) (dropped : Nat) (bytes : Bytes) :
    Except DecodeError (Number × Bytes) :=
  match bytes with
  | point :: rest => fractionPart negative significand dropped rest
  | lowerE :: rest => exponentPart negative significand dropped rest
  | upperE :: rest => exponentPart negative significand dropped rest
  | _ =>
    if dropped ≠ 0 then scaled negative significand dropped bytes
    else if h : significand < 18446744073709551616 then
      if negative then
        if h' : 0 < significand ∧ significand ≤ 9223372036854775808 then
          .ok (.integer ⟨-significand, by omega, by omega⟩, bytes)
        else scaled true significand 0 bytes
      else .ok (.integer ⟨significand, by omega, by omega⟩, bytes)
    else .error .malformed

/-- The digits of a number, after its sign. -/
def digitsPart (negative : Bool) (bytes : Bytes) : Except DecodeError (Number × Bytes) :=
  match bytes with
  | zero :: rest =>
    match rest with
    | b :: _ => if (digit? b).isSome then .error .malformed else numberTail negative 0 0 rest
    | [] => numberTail negative 0 0 rest
  | b :: rest =>
    match digit? b with
    | none => .error .malformed
    | some d =>
      let (value, _, rest) := significandDigits d 0 rest
      let (dropped, rest) := dropDigits 0 rest
      numberTail negative value dropped rest
  | [] => .error .malformed

/-- A number. -/
def number (bytes : Bytes) : Except DecodeError (Number × Bytes) :=
  match bytes with
  | minus :: rest => digitsPart true rest
  | _ => digitsPart false bytes

/-! ## Strings -/

/-- The number that four hexadecimal digits at the front write. -/
def hexWord? : Bytes → Option Nat
  | a :: b :: c :: d :: _ => do
    let a ← Hex.digit? a
    let b ← Hex.digit? b
    let c ← Hex.digit? c
    let d ← Hex.digit? d
    some (((a * 16 + b) * 16 + c) * 16 + d)
  | _ => none

/-- The byte of a one-letter escape. -/
def escapedByte? (b : UInt8) : Option UInt8 :=
  match b with
  | quote => some 34
  | backslash => some 92
  | slash => some 47
  | lowerB => some 8
  | lowerF => some 12
  | lowerN => some 10
  | lowerR => some 13
  | lowerT => some 9
  | _ => none

/-- The bytes of a character given by its code point. -/
def charBytes (n : Nat) : Bytes :=
  String.utf8EncodeChar (Char.ofNat n)

/-- What the hexadecimal escape whose digits follow stands for, and how many bytes the escape takes
after its letter. Two escapes of a surrogate pair stand for one character. -/
def hexEscape? (bytes : Bytes) : Option (Bytes × Nat) := do
  let n ← hexWord? bytes
  if n < 0xD800 ∨ 0xE000 ≤ n then some (charBytes n, 4)
  else if 0xDC00 ≤ n then none
  else match bytes.drop 4 with
    | s :: u :: rest =>
      if s = backslash ∧ u = lowerU then
        let m ← hexWord? rest
        if 0xDC00 ≤ m ∧ m < 0xE000 then
          some (charBytes (0x10000 + (n - 0xD800) * 0x400 + (m - 0xDC00)), 10)
        else none
      else none
    | _ => none

/-- What an escape stands for, given the bytes after its backslash, and how many it takes. -/
def escape? : Bytes → Option (Bytes × Nat)
  | [] => none
  | e :: rest =>
    if e = lowerU then (hexEscape? rest).map fun (text, taken) => (text, taken + 1)
    else (escapedByte? e).map fun b => ([b], 1)

/-- A string after its opening quote. The bytes read so far are in `acc`, last first. -/
def stringBody (acc : Bytes) (bytes : Bytes) : Except DecodeError (Bytes × Bytes) :=
  match bytes with
  | [] => .error .malformed
  | b :: rest =>
    if b = quote then .ok (acc.reverse, rest)
    else if b = backslash then
      match escape? rest with
      | some (text, taken) => stringBody (text.reverse ++ acc) (rest.drop taken)
      | none => .error .malformed
    else if b < 32 then .error .malformed
    else stringBody (b :: acc) rest
termination_by bytes.length
decreasing_by all_goals simp only [List.length_drop, List.length_cons]; omega

/-- A string after its opening quote, as text. -/
def string (bytes : Bytes) : Except DecodeError (String × Bytes) := do
  let (body, rest) ← stringBody [] bytes
  match Utf8.decode? body with
  | some s => .ok (s, rest)
  | none => .error .malformed

/-! ## Sequences and members -/

/-- Items separated by commas, up to the closing bracket. -/
def items {α : Type} (item : Reader α) : Nat → Reader (List α)
  | 0, _ => .error .malformed
  | fuel + 1, bytes => do
    let (x, rest) ← item bytes
    match skipSpace rest with
    | comma :: rest =>
      let (xs, rest) ← items item fuel rest
      .ok (x :: xs, rest)
    | closeBracket :: rest => .ok ([x], rest)
    | _ => .error .malformed

/-- The items of an array, after its opening bracket. -/
def arrayItems {α : Type} (item : Reader α) (bytes : Bytes) :
    Except DecodeError (List α × Bytes) :=
  match skipSpace bytes with
  | closeBracket :: rest => .ok ([], rest)
  | rest => items item rest.length rest

/-- Expects the colon between a name and its value. -/
def skipColon (bytes : Bytes) : Except DecodeError Bytes :=
  match skipSpace bytes with
  | colon :: rest => .ok rest
  | _ => .error .malformed

/-- Members separated by commas, up to the closing brace. `step` reads one member: it gets what the
earlier members made of the state, the name, and the bytes after the name. -/
def members {σ : Type} (name : Reader String)
    (step : σ → String → Reader σ) : Nat → σ → Reader σ
  | 0, _, _ => .error .malformed
  | fuel + 1, s, bytes =>
    match skipSpace bytes with
    | quote :: rest => do
      let (k, rest) ← name rest
      let (s, rest) ← step s k rest
      match skipSpace rest with
      | comma :: rest => members name step fuel s rest
      | closeBrace :: rest => .ok (s, rest)
      | _ => .error .malformed
    | _ => .error .malformed

/-- The members of an object, after its opening brace. -/
def objectMembers {σ : Type} (name : Reader String)
    (step : σ → String → Reader σ) (start : σ) (bytes : Bytes) :
    Except DecodeError (σ × Bytes) :=
  match skipSpace bytes with
  | closeBrace :: rest => .ok (start, rest)
  | rest => members name step rest.length start rest

/-! ## Values -/

/-- A value that is neither array nor object. -/
def scalar (bytes : Bytes) : Except DecodeError (Value × Bytes) :=
  match skipSpace bytes with
  | lowerN :: rest => do
    let rest ← word [117, 108, 108] rest
    .ok (.null, rest)
  | lowerT :: rest => do
    let rest ← word [114, 117, 101] rest
    .ok (.bool true, rest)
  | lowerF :: rest => do
    let rest ← word [97, 108, 115, 101] rest
    .ok (.bool false, rest)
  | quote :: rest => do
    let (s, rest) ← string rest
    .ok (.string s, rest)
  | rest => do
    let (n, rest) ← number rest
    .ok (.number n, rest)

/-- Reads one member of an object value; members are collected last first. -/
def memberValue (item : Reader Value) (acc : List (String × Value)) (name : String)
    (bytes : Bytes) : Except DecodeError ((List (String × Value)) × Bytes) := do
  let rest ← skipColon bytes
  let (v, rest) ← item rest
  .ok ((name, v) :: acc, rest)

/-- A value that encloses at most `budget` arrays and objects. -/
def value : Nat → Reader Value
  | 0, bytes => scalar bytes
  | budget + 1, bytes =>
    match skipSpace bytes with
    | openBracket :: rest => do
      let (xs, rest) ← arrayItems (value budget) rest
      .ok (.array xs, rest)
    | openBrace :: rest => do
      let (ms, rest) ← objectMembers string (memberValue (value budget)) [] rest
      .ok (.object (ordered ms.reverse), rest)
    | _ => scalar bytes

/-! ## Skipping -/

/-- How many bytes after its backslash a skipped escape takes; surrogates need not be paired. -/
def escapeLength? : Bytes → Option Nat
  | [] => none
  | e :: rest =>
    if e = lowerU then (hexWord? rest).map fun _ => 5 else (escapedByte? e).map fun _ => 1

/-- Passes over a string whose opening quote was read; its bytes need not be text. -/
def skipString (bytes : Bytes) : Except DecodeError Bytes :=
  match bytes with
  | [] => .error .malformed
  | b :: rest =>
    if b = quote then .ok rest
    else if b = backslash then
      match escapeLength? rest with
      | some taken => skipString (rest.drop taken)
      | none => .error .malformed
    else if b < 32 then .error .malformed
    else skipString rest
termination_by bytes.length
decreasing_by all_goals simp only [List.length_drop, List.length_cons]; omega

/-- Expects at least one digit. -/
def skipDigits (bytes : Bytes) : Except DecodeError Bytes :=
  match dropDigits 0 bytes with
  | (0, _) => .error .malformed
  | (_, rest) => .ok rest

/-- Passes over an exponent, if one follows. -/
def skipExponent (bytes : Bytes) : Except DecodeError Bytes :=
  let afterSign (bytes : Bytes) := match bytes with
    | plus :: rest => skipDigits rest
    | minus :: rest => skipDigits rest
    | _ => skipDigits bytes
  match bytes with
  | lowerE :: rest => afterSign rest
  | upperE :: rest => afterSign rest
  | _ => .ok bytes

/-- Passes over a number, whatever its size. -/
def skipNumber (bytes : Bytes) : Except DecodeError Bytes := do
  let digits := match bytes with
    | minus :: rest => rest
    | _ => bytes
  let afterInteger ← match digits with
    | zero :: rest =>
      match rest with
      | b :: _ => if (digit? b).isSome then .error .malformed else .ok rest
      | [] => .ok rest
    | _ => skipDigits digits
  let afterFraction ← match afterInteger with
    | point :: rest => skipDigits rest
    | _ => .ok afterInteger
  skipExponent afterFraction

/-- Passes over a name whose opening quote was read. -/
def skippedName (bytes : Bytes) : Except DecodeError (String × Bytes) := do
  let rest ← skipString bytes
  .ok ("", rest)

/-- Passes over one member of an object. -/
def skippedMember (item : Reader Unit) (_ : Unit) (_ : String) (bytes : Bytes) :
    Except DecodeError (Unit × Bytes) := do
  let rest ← skipColon bytes
  item rest

/-- Passes over a value that encloses at most `budget` arrays and objects. -/
def skippedValue : Nat → Reader Unit
  | 0, _ => .error .malformed
  | budget + 1, bytes =>
    match skipSpace bytes with
    | openBracket :: rest => do
      let (_, rest) ← arrayItems (skippedValue budget) rest
      .ok ((), rest)
    | openBrace :: rest => objectMembers skippedName (skippedMember (skippedValue budget)) () rest
    | quote :: rest => do
      let rest ← skipString rest
      .ok ((), rest)
    | lowerN :: rest => do
      let rest ← word [117, 108, 108] rest
      .ok ((), rest)
    | lowerT :: rest => do
      let rest ← word [114, 117, 101] rest
      .ok ((), rest)
    | lowerF :: rest => do
      let rest ← word [97, 108, 115, 101] rest
      .ok ((), rest)
    | rest => do
      let rest ← skipNumber rest
      .ok ((), rest)

/-- Passes over a value of any depth. -/
def skipValue (bytes : Bytes) : Except DecodeError Bytes := do
  let (_, rest) ← skippedValue (bytes.length + 1) bytes
  .ok rest

/-! ## Expected shapes -/

/-- Reports what stands where `expected` should; arrays and objects are not read for this. -/
def refuse {α : Type} (expected : String) (bytes : Bytes) : Except DecodeError (α × Bytes) :=
  match skipSpace bytes with
  | openBracket :: _ => .error (.invalidType .sequence expected)
  | openBrace :: _ => .error (.invalidType .map expected)
  | _ => do
    let (v, _) ← scalar bytes
    .error (.invalidType v.unexpected expected)

/-- A string, where one is expected. -/
def expectString (bytes : Bytes) : Except DecodeError (String × Bytes) :=
  match skipSpace bytes with
  | quote :: rest => string rest
  | _ => refuse "a string" bytes

/-- The next item of an array that has a fixed number of fields: nothing when the array ends. -/
def nextItem {α : Type} (first : Bool) (item : Reader α) (bytes : Bytes) :
    Except DecodeError (Option α × Bytes) :=
  let read (bytes : Bytes) : Except DecodeError (Option α × Bytes) := do
    let (x, rest) ← item bytes
    .ok (some x, rest)
  match skipSpace bytes with
  | closeBracket :: rest => .ok (none, closeBracket :: rest)
  | comma :: rest =>
    if first then read (comma :: rest)
    else match skipSpace rest with
      | closeBracket :: _ => .error .malformed
      | _ => read rest
  | rest => if first then read rest else .error .malformed

/-- Expects the end of an array. -/
def closeArray (bytes : Bytes) : Except DecodeError Bytes :=
  match skipSpace bytes with
  | closeBracket :: rest => .ok rest
  | _ => .error .malformed

/-- A whole document: only white space may follow. -/
def document {α : Type} (read : Reader α) (bytes : Bytes) : Except DecodeError α := do
  let (x, rest) ← read bytes
  if (skipSpace rest).isEmpty then .ok x else .error .malformed

/-- How deep arrays and objects may enclose each other in a received document. -/
def nestingLimit : Nat := 127

/-- Reads a document that nests at most `limit` arrays and objects. -/
def Value.ofBytes (limit : Nat) (bytes : Bytes) : Except DecodeError Value :=
  document (value limit) bytes

end Json

end GossipDirectory
