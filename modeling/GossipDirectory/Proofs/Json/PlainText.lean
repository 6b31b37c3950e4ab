import GossipDirectory.Json.Printer
import GossipDirectory.Proofs.Text.Encoding

/-!
# Written values are UTF-8

Escapes and punctuation are ASCII, and every other character is written as it is, so the bytes that
are written for a value are those of a text.
-/

namespace GossipDirectory

namespace Json

open Utf8

theorem hexDigitByte_lt {d : Nat} (h : d < 16) : (hexDigitByte d).toNat < 128 := by
  decide +revert

theorem isText_escapeChar (c : Char) : IsText (escapeChar c) := by
  have hescape (e : UInt8) (he : e.toNat < 128) : IsText [backslash, e] := by
    apply isText_of_lt
    simpa using ⟨by decide, he⟩
  rw [escapeChar]
  split
  · exact hescape _ (by decide)
  split
  · exact hescape _ (by decide)
  split
  · exact hescape _ (by decide)
  split
  · exact hescape _ (by decide)
  split
  · exact hescape _ (by decide)
  split
  · exact hescape _ (by decide)
  split
  · exact hescape _ (by decide)
  split
  · next hcontrol =>
      have hhigh := hexDigitByte_lt (d := c.toNat / 16) (by omega)
      have hlow := hexDigitByte_lt (d := c.toNat % 16) (by omega)
      have hdigits : IsText [hexDigitByte (c.toNat / 16), hexDigitByte (c.toNat % 16)] :=
        isText_of_lt (by simpa using ⟨hhigh, hlow⟩)
      have hunit : IsText [backslash, lowerU, zero, zero] := isText_of_all rfl
      exact hunit.append hdigits
  · have hplain := isText_chars [c]
    rwa [List.flatMap_singleton] at hplain

theorem isText_stringBytes (s : String) : IsText (stringBytes s) := by
  have hquote : IsText [quote] := isText_of_all rfl
  have hbody : IsText (s.toList.flatMap escapeChar) := by
    rw [List.flatMap]
    exact .flatten (by simp [isText_escapeChar])
  exact hquote.append (hbody.append hquote)

theorem isText_separated {pieces : List Bytes} (h : ∀ p ∈ pieces, IsText p) :
    IsText (separated pieces) := by
  have hcomma : IsText [comma] := isText_of_all rfl
  induction pieces with
  | nil => exact isText_chars []
  | cons x rest ih =>
      cases rest with
      | nil => exact h x List.mem_cons_self
      | cons y rest =>
          have hx := h x List.mem_cons_self
          have hrest := ih fun p hp => h p (List.mem_cons_of_mem _ hp)
          exact hx.append (hcomma.append hrest)

theorem isText_memberBytes (name : String) {v : Bytes} (h : IsText v) :
    IsText (memberBytes name v) := by
  have hcolon : IsText [colon] := isText_of_all rfl
  exact (isText_stringBytes name).append (hcolon.append h)

/-- Pieces between two brackets, with commas between them. -/
theorem isText_enclosed {opening closing : UInt8} {pieces : List Bytes} (ho : opening.toNat < 128)
    (hc : closing.toNat < 128) (h : ∀ p ∈ pieces, IsText p) :
    IsText (opening :: (separated pieces ++ [closing])) := by
  have hopening : IsText [opening] := isText_of_lt (by simpa using ho)
  have hclosing : IsText [closing] := isText_of_lt (by simpa using hc)
  exact hopening.append ((isText_separated h).append hclosing)

mutual

theorem isText_toBytes : (v : Value) → IsText v.toBytes
  | .null => isText_of_all rfl
  | .bool true => isText_of_all rfl
  | .bool false => isText_of_all rfl
  | .number n => isText_encode n.text
  | .string s => isText_stringBytes s
  | .array xs => isText_enclosed (by decide) (by decide) (isText_itemBytes xs)
  | .object ms => isText_enclosed (by decide) (by decide) (isText_memberListBytes ms)

theorem isText_itemBytes : (xs : List Value) → ∀ p ∈ itemBytes xs, IsText p
  | [] => nofun
  | v :: rest => List.forall_mem_cons.2 ⟨isText_toBytes v, isText_itemBytes rest⟩

theorem isText_memberListBytes : (ms : List (String × Value)) → ∀ p ∈ memberListBytes ms, IsText p
  | [] => nofun
  | (k, v) :: rest =>
    List.forall_mem_cons.2 ⟨isText_memberBytes k (isText_toBytes v), isText_memberListBytes rest⟩

end

end Json

end GossipDirectory
