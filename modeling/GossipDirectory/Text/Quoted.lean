import GossipDirectory.Text.Printable

/-!
# Quoted text in messages

Error texts show a text between double quotes and a character between single quotes. The quote,
the backslash and the common control characters have short escapes; other characters that are not
printable appear by their code point.
-/

namespace GossipDirectory

namespace Quoted

/-- Lower case hexadecimal digits of a number. -/
def hexDigits (n : Nat) : List Char :=
  Nat.toDigits 16 n

/-- A character as it appears between the quotes `quote`. -/
def escapeChar (quote c : Char) : List Char :=
  if c = '\x00' then ['\\', '0']
  else if c = '\t' then ['\\', 't']
  else if c = '\r' then ['\\', 'r']
  else if c = '\n' then ['\\', 'n']
  else if c = '\\' ∨ c = quote then ['\\', c]
  else if Printable.isPrintable c then [c]
  else ['\\', 'u', Char.ofNat 123] ++ hexDigits c.toNat ++ [Char.ofNat 125]

/-- A text between double quotes. -/
def text (s : String) : String :=
  String.ofList ('"' :: (s.toList.flatMap (escapeChar '"') ++ ['"']))

/-- A character between single quotes. -/
def char (c : Char) : String :=
  String.ofList ('\'' :: (escapeChar '\'' c ++ ['\'']))

end Quoted

end GossipDirectory
