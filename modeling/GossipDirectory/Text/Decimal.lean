/-!
# Decimal numerals

A number is written without sign and without leading zeros. Reading accepts leading zeros and one
plus sign, and refuses a number at or above the given bound.
-/

namespace GossipDirectory

namespace Decimal

/-- The value of a decimal digit. -/
def digit? (c : Char) : Option Nat :=
  if 48 ≤ c.toNat ∧ c.toNat ≤ 57 then some (c.toNat - 48) else none

/-- The character of a decimal digit. -/
def digitChar (d : Nat) : Char :=
  Char.ofNat (48 + d)

/-- Reads the remaining digits of a number whose leading digits have the value `acc`. -/
def ofDigits? (acc : Nat) : List Char → Option Nat
  | [] => some acc
  | c :: rest =>
    match digit? c with
    | some d => ofDigits? (10 * acc + d) rest
    | none => none

/-- Reads a number written with digits only. -/
def ofChars? : List Char → Option Nat
  | [] => none
  | c :: rest => ofDigits? 0 (c :: rest)

/-- Reads a number below `bound`, with an optional plus sign. -/
def parse? (bound : Nat) (cs : List Char) : Option Nat :=
  let digits := match cs with
    | '+' :: rest => rest
    | _ => cs
  (ofChars? digits).filter (· < bound)

/-- The decimal digits of a number. -/
def render (n : Nat) : List Char :=
  if n < 10 then [digitChar n] else render (n / 10) ++ [digitChar (n % 10)]
termination_by n

/-- The decimal text of a number. -/
def text (n : Nat) : String :=
  String.ofList (render n)

/-- The decimal text of an integer, with a minus sign when it is negative. -/
def signedText (i : Int) : String :=
  match i with
  | .ofNat n => text n
  | .negSucc n => "-" ++ text (n + 1)

theorem digit?_digitChar {d : Nat} (h : d < 10) : digit? (digitChar d) = some d := by
  have : d = 0 ∨ d = 1 ∨ d = 2 ∨ d = 3 ∨ d = 4 ∨ d = 5 ∨ d = 6 ∨ d = 7 ∨ d = 8 ∨ d = 9 := by
    omega
  rcases this with rfl | rfl | rfl | rfl | rfl | rfl | rfl | rfl | rfl | rfl <;> decide

theorem ofDigits?_append (acc : Nat) (xs ys : List Char) :
    ofDigits? acc (xs ++ ys) = (ofDigits? acc xs).bind (ofDigits? · ys) := by
  induction xs generalizing acc with
  | nil => rfl
  | cons c rest ih =>
    simp only [List.cons_append, ofDigits?]
    cases digit? c with
    | none => rfl
    | some d => exact ih _

theorem ofDigits?_render (n : Nat) : ofDigits? 0 (render n) = some n := by
  induction n using Nat.strongRecOn with
  | ind n ih =>
    unfold render
    split
    · next h => simp [ofDigits?, digit?_digitChar h]
    · next h =>
      have hd : n % 10 < 10 := Nat.mod_lt _ (by decide)
      rw [ofDigits?_append, ih (n / 10) (by omega)]
      simp only [Option.bind_some, ofDigits?, digit?_digitChar hd]
      congr 1
      omega

theorem render_ne_nil (n : Nat) : render n ≠ [] := by
  unfold render
  split <;> simp

theorem ofChars?_render (n : Nat) : ofChars? (render n) = some n := by
  have h := ofDigits?_render n
  revert h
  cases hr : render n with
  | nil => exact absurd hr (render_ne_nil n)
  | cons c rest => exact id

/-- A number is read back below every bound that it keeps: it starts with no sign. -/
theorem parse?_render {bound n : Nat} (h : n < bound) : parse? bound (render n) = some n := by
  have hread := ofChars?_render n
  unfold parse?
  split
  case h_1 rest hr =>
    rw [hr] at hread
    simp [ofChars?, ofDigits?, digit?] at hread
  case h_2 =>
    dsimp only
    rw [hread]
    simp [h]

end Decimal

end GossipDirectory
