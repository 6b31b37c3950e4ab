/-!
# The bytes that structure a document
-/

namespace GossipDirectory

namespace Json

@[match_pattern] abbrev quote : UInt8 := 34
@[match_pattern] abbrev backslash : UInt8 := 92
@[match_pattern] abbrev slash : UInt8 := 47
@[match_pattern] abbrev openBrace : UInt8 := 123
@[match_pattern] abbrev closeBrace : UInt8 := 125
@[match_pattern] abbrev openBracket : UInt8 := 91
@[match_pattern] abbrev closeBracket : UInt8 := 93
@[match_pattern] abbrev colon : UInt8 := 58
@[match_pattern] abbrev comma : UInt8 := 44
@[match_pattern] abbrev minus : UInt8 := 45
@[match_pattern] abbrev plus : UInt8 := 43
@[match_pattern] abbrev point : UInt8 := 46
@[match_pattern] abbrev zero : UInt8 := 48
@[match_pattern] abbrev lowerB : UInt8 := 98
@[match_pattern] abbrev lowerE : UInt8 := 101
@[match_pattern] abbrev upperE : UInt8 := 69
@[match_pattern] abbrev lowerF : UInt8 := 102
@[match_pattern] abbrev lowerN : UInt8 := 110
@[match_pattern] abbrev lowerR : UInt8 := 114
@[match_pattern] abbrev lowerT : UInt8 := 116
@[match_pattern] abbrev lowerU : UInt8 := 117

/-- Space, tab, line feed and carriage return may stand between tokens. -/
def isSpace (b : UInt8) : Bool :=
  b = 32 || b = 9 || b = 10 || b = 13

/-- The value of a decimal digit. -/
def digit? (b : UInt8) : Option Nat :=
  if 48 ≤ b ∧ b ≤ 57 then some (b.toNat - 48) else none

end Json

end GossipDirectory
