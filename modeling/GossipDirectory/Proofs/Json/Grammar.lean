import GossipDirectory.Json.Printer
import GossipDirectory.Json.Reader
import Mathlib.Data.List.Forall2

/-!
# The grammar of documents

A text of a document may put white space between its tokens and spell the characters of its strings
in several ways, so a document has many texts. A document keeps what is written apart from that: the
parts of its numerals, and the members of its objects in any order and with repeated names. The value
that it stands for has the last of several members with one name.

## Implementation notes

Escapes name code units of UTF-16, so a string is a sequence of such units. Half a surrogate pair is
a unit as well, but no text has it: then the document stands for no value. It stands for none either
if the magnitude of a numeral is too large for a double.
-/

namespace GossipDirectory

namespace Json

/-- White space between tokens. -/
def Spaces (bs : Bytes) : Prop :=
  ∀ b ∈ bs, isSpace b = true

instance (bs : Bytes) : Decidable (Spaces bs) :=
  List.decidableBAll _ bs

/-! ## Strings -/

/-- Code units of UTF-16. -/
abbrev Units := List Nat

/-- The code units of a character. -/
def unitsOf (c : Char) : Units :=
  if c.toNat < 0x10000 then [c.toNat]
  else [0xD800 + (c.toNat - 0x10000) / 0x400, 0xDC00 + (c.toNat - 0x10000) % 0x400]

/-- The code units of a text. -/
def Units.ofText (s : String) : Units :=
  s.toList.flatMap unitsOf

/-- The unit stands for a character of its own. -/
def IsSingle (n : Nat) : Prop :=
  n < 0xD800 ∨ 0xE000 ≤ n

instance (n : Nat) : Decidable (IsSingle n) :=
  inferInstanceAs (Decidable (_ ∨ _))

/-- The units are the two halves of a surrogate pair. -/
def IsPair (n m : Nat) : Prop :=
  (0xD800 ≤ n ∧ n < 0xDC00) ∧ 0xDC00 ≤ m ∧ m < 0xE000

instance (n m : Nat) : Decidable (IsPair n m) :=
  inferInstanceAs (Decidable (_ ∧ _))

/-- The characters of code units, if every surrogate is half of a pair. -/
def Units.chars? : Units → Option (List Char)
  | [] => some []
  | [n] => if IsSingle n then some [Char.ofNat n] else none
  | n :: m :: rest =>
    if IsSingle n then (chars? (m :: rest)).map (Char.ofNat n :: ·)
    else if IsPair n m then
      (chars? rest).map (Char.ofNat (0x10000 + (n - 0xD800) * 0x400 + (m - 0xDC00)) :: ·)
    else none

/-- The text of code units. -/
def Units.text? (units : Units) : Option String :=
  units.chars?.map String.ofList

/-- The characters that have an escape of one letter. -/
def letterEscapes : List (Char × UInt8) :=
  [('"', quote), ('\\', backslash), ('/', slash), ('\x08', lowerB), ('\x0c', lowerF),
    ('\n', lowerN), ('\r', lowerR), ('\t', lowerT)]

/-- The spellings of code units inside a string. -/
inductive UnitsText : Units → Bytes → Prop
  | nil : UnitsText [] []
  | plain {c : Char} {units : Units} {bs : Bytes} (hquote : c ≠ '"') (hbackslash : c ≠ '\\')
      (hcontrol : 32 ≤ c.toNat) (h : UnitsText units bs) :
      UnitsText (unitsOf c ++ units) (String.utf8EncodeChar c ++ bs)
  | letter {c : Char} {e : UInt8} {units : Units} {bs : Bytes} (hletter : (c, e) ∈ letterEscapes)
      (h : UnitsText units bs) : UnitsText (unitsOf c ++ units) (backslash :: e :: bs)
  | escape {n : Nat} {digits : Bytes} {units : Units} {bs : Bytes} (hlength : digits.length = 4)
      (hn : hexWord? digits = some n) (h : UnitsText units bs) :
      UnitsText (n :: units) (backslash :: lowerU :: (digits ++ bs))

/-- The texts of a string. -/
inductive StringText : Units → Bytes → Prop
  | mk {units : Units} {bs : Bytes} (h : UnitsText units bs) :
      StringText units (quote :: (bs ++ [quote]))

/-! ## Numerals -/

/-- The integer as a word, if it fits one. -/
def WordInt.ofInt? (i : Int) : Option WordInt :=
  if h : -9223372036854775808 ≤ i ∧ i < 18446744073709551616 then some ⟨i, h.1, h.2⟩ else none

/-- The digit of a value below ten as a byte. -/
def digitByte (d : Nat) : UInt8 :=
  UInt8.ofNat (48 + d)

/-- Decimal digits. -/
abbrev Digits := List (Fin 10)

namespace Digits

/-- The digits as they are written. -/
def bytes (ds : Digits) : Bytes :=
  ds.map fun d : Fin 10 => digitByte d

/-- The number that digits make when they are appended to those of a number. -/
def valueFrom (n : Nat) (ds : Digits) : Nat :=
  ds.foldl (fun n (d : Fin 10) => n * 10 + d) n

/-- The number with the given digits. -/
def value (ds : Digits) : Nat :=
  ds.valueFrom 0

/-- A significand of 64 bits with the digits that fit behind its own, and the digits from the first
on that does not fit. -/
def extend (significand : Nat) : Digits → Nat × Digits
  | [] => (significand, [])
  | d :: ds =>
    if significand * 10 + d < UInt64.size then extend (significand * 10 + d) ds
    else (significand, d :: ds)

end Digits

/-- How the sign of an exponent is written. -/
inductive ExponentSign
  | absent | plus | minus
  deriving DecidableEq

/-- The bytes of the sign. -/
def ExponentSign.bytes : ExponentSign → Bytes
  | .absent => []
  | .plus => [Json.plus]
  | .minus => [Json.minus]

/-- The exponent of a numeral. -/
structure Exponent where
  capital : Bool
  sign : ExponentSign
  digits : Digits
  digits_ne_nil : digits ≠ []

/-- The exponent as it is written. -/
def Exponent.bytes (e : Exponent) : Bytes :=
  (if e.capital then upperE else lowerE) :: (e.sign.bytes ++ e.digits.bytes)

/-- A numeral of any size, by its parts. A point is written if digits follow it; of the digits
before it the first is zero only if it is the only one. -/
structure Numeral where
  negative : Bool
  whole : Digits
  fraction : Digits
  exponent : Option Exponent
  whole_eq : whole = [0] ∨ ∃ d ds, d ≠ 0 ∧ whole = d :: ds

namespace Numeral

/-- The digits after the point, with the point. -/
def fractionBytes (ds : Digits) : Bytes :=
  if ds = [] then [] else point :: ds.bytes

/-- An exponent, if there is one. -/
def exponentBytes (e : Option Exponent) : Bytes :=
  e.elim [] Exponent.bytes

/-- The numeral as it is written. -/
def bytes (n : Numeral) : Bytes :=
  (if n.negative then [minus] else []) ++
    (n.whole.bytes ++ (fractionBytes n.fraction ++ exponentBytes n.exponent))

/-- The integer that a numeral without fraction and exponent writes, if it fits a word; a negative
zero is none. -/
def integer? (n : Numeral) : Option WordInt :=
  if n.fraction ≠ [] ∨ n.exponent.isSome ∨ (n.negative ∧ n.whole.value = 0) then none
  else WordInt.ofInt? (if n.negative then -n.whole.value else n.whole.value)

/-- The double `significand · 10 ^ power` times the power of ten that an exponent writes. Of an
exponent of more than 31 bits only the sign counts. -/
def scaled? (negative : Bool) (significand : Nat) (power : Int) : Option Exponent → Option Double
  | none => Double.ofDecimal? negative significand power
  | some e =>
    if e.digits.value < exponentBound then
      Double.ofDecimal? negative significand
        (saturate (if e.sign = .minus then power - e.digits.value else power + e.digits.value))
    else if significand = 0 ∨ e.sign = .minus then Double.ofDecimal? negative 0 0
    else none

/-- The double that a numeral writes: its significand takes the digits that fit, first of those
before the point and then of those after it. Every digit before the point that does not fit, and
every one after it that does, moves the point. -/
def double? (n : Numeral) : Option Double :=
  let (start, dropped) := n.whole.extend 0
  let (significand, rest) := n.fraction.extend start
  scaled? n.negative significand (dropped.length - (n.fraction.length - rest.length : Nat))
    n.exponent

/-- The number that a numeral writes, if it is in range. -/
def number? (n : Numeral) : Option Number :=
  match n.integer? with
  | some i => some (.integer i)
  | none => n.double?.map .double

end Numeral

/-! ## Documents -/

/-- A document as it is written, apart from white space and the spelling of its strings. -/
inductive Document
  | null
  | bool (b : Bool)
  | number (n : Numeral)
  | string (units : Units)
  | array (items : List Document)
  | object (members : List (Units × Document))

mutual

/-- The texts of a document, without white space around them. -/
inductive Text : Document → Bytes → Prop
  | null : Text .null [lowerN, 117, 108, 108]
  | boolTrue : Text (.bool true) [lowerT, 114, 117, 101]
  | boolFalse : Text (.bool false) [lowerF, 97, 108, 115, 101]
  | number (n : Numeral) : Text (.number n) n.bytes
  | string {units : Units} {bs : Bytes} (h : StringText units bs) : Text (.string units) bs
  | emptyArray {ws : Bytes} (h : Spaces ws) :
      Text (.array []) (openBracket :: (ws ++ [closeBracket]))
  | array {xs : List Document} {ts : List Bytes} (hne : xs ≠ [])
      (h : List.Forall₂ Padded xs ts) :
      Text (.array xs) (openBracket :: (separated ts ++ [closeBracket]))
  | emptyObject {ws : Bytes} (h : Spaces ws) :
      Text (.object []) (openBrace :: (ws ++ [closeBrace]))
  | object {ms : List (Units × Document)} {ts : List Bytes} (hne : ms ≠ [])
      (h : List.Forall₂ MemberText ms ts) :
      Text (.object ms) (openBrace :: (separated ts ++ [closeBrace]))

/-- The texts of a document with white space around them. -/
inductive Padded : Document → Bytes → Prop
  | mk {d : Document} {before text after : Bytes} (hbefore : Spaces before) (h : Text d text)
      (hafter : Spaces after) : Padded d (before ++ (text ++ after))

/-- The texts of a member: a name, a colon and a document. -/
inductive MemberText : Units × Document → Bytes → Prop
  | mk {name : Units} {d : Document} {before nameText after text : Bytes}
      (hbefore : Spaces before) (hname : StringText name nameText) (hafter : Spaces after)
      (h : Padded d text) :
      MemberText (name, d) (before ++ (nameText ++ (after ++ colon :: text)))

end

namespace Document

mutual

/-- How many arrays and objects enclose the innermost one, itself included. -/
def depth : Document → Nat
  | .array items => depthItems items + 1
  | .object members => depthMembers members + 1
  | _ => 0

/-- The greatest depth of the items. -/
def depthItems : List Document → Nat
  | [] => 0
  | d :: rest => max (depth d) (depthItems rest)

/-- The greatest depth of the members. -/
def depthMembers : List (Units × Document) → Nat
  | [] => 0
  | (_, d) :: rest => max (depth d) (depthMembers rest)

end

mutual

/-- The value that a document stands for: of several members with one name the last counts, and
members are kept in the order of their names. -/
def value? : Document → Option Value
  | .null => some .null
  | .bool b => some (.bool b)
  | .number n => n.number?.map .number
  | .string units => units.text?.map .string
  | .array items => (values? items).map .array
  | .object members => (members? members).map fun ms => .object (ordered ms)

/-- The values that the items stand for. -/
def values? : List Document → Option (List Value)
  | [] => some []
  | d :: rest => do
    let v ← value? d
    let vs ← values? rest
    some (v :: vs)

/-- The names and values that the members stand for. -/
def members? : List (Units × Document) → Option (List (String × Value))
  | [] => some []
  | (name, d) :: rest => do
    let k ← name.text?
    let v ← value? d
    let ms ← members? rest
    some ((k, v) :: ms)

end

mutual

/-- All strings and names in the document and all its numerals have a property. -/
def All (P : Units → Prop) (Q : Numeral → Prop) : Document → Prop
  | .number n => Q n
  | .string units => P units
  | .array items => AllItems P Q items
  | .object members => AllMembers P Q members
  | _ => True

/-- All strings and numerals in the items have a property. -/
def AllItems (P : Units → Prop) (Q : Numeral → Prop) : List Document → Prop
  | [] => True
  | d :: rest => All P Q d ∧ AllItems P Q rest

/-- All names, strings and numerals in the members have a property. -/
def AllMembers (P : Units → Prop) (Q : Numeral → Prop) : List (Units × Document) → Prop
  | [] => True
  | (name, d) :: rest => (P name ∧ All P Q d) ∧ AllMembers P Q rest

end

/-- Every surrogate in the strings and names of the document is half of a pair. -/
def Paired (d : Document) : Prop :=
  d.All (·.text?.isSome) fun _ => True

/-- Every numeral of the document is in range. -/
def InRange (d : Document) : Prop :=
  d.All (fun _ => True) (·.number?.isSome)

end Document

end Json

end GossipDirectory
