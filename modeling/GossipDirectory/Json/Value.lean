import GossipDirectory.Number.Double
import GossipDirectory.Text.Utf8

/-!
# JSON values

Numbers are integers between `-2 ^ 63` and `2 ^ 64` or finite doubles. The members of an object are
kept in ascending order of their names, each name once; `Value.Ordered` states this for a whole
value and `ordered` establishes it for the members of one object.
-/

namespace GossipDirectory

namespace Json

/-- An integer that fits a signed or an unsigned machine word. -/
structure WordInt where
  val : Int
  lower : -9223372036854775808 ≤ val
  upper : val < 18446744073709551616
  deriving DecidableEq, Repr

/-- The integer of an unsigned word. -/
def WordInt.ofUInt64 (n : UInt64) : WordInt :=
  { val := n.toNat
    lower := by omega
    upper := by have := n.toNat_lt; omega }

/-- A number as documents hold it. -/
inductive Number
  | integer (i : WordInt)
  | double (x : Double)
  deriving DecidableEq, Repr

/-- A JSON value. -/
inductive Value
  | null
  | bool (b : Bool)
  | number (n : Number)
  | string (s : String)
  | array (items : List Value)
  | object (members : List (String × Value))
  deriving Repr

instance : Inhabited Value := ⟨.null⟩

namespace Value

mutual

/-- Equality of values is decidable. -/
def decEq : (a b : Value) → Decidable (a = b)
  | .null, .null => isTrue rfl
  | .bool x, .bool y => decidable_of_iff (x = y) (by simp)
  | .number x, .number y => decidable_of_iff (x = y) (by simp)
  | .string x, .string y => decidable_of_iff (x = y) (by simp)
  | .array x, .array y =>
    match decEqItems x y with
    | isTrue h => isTrue (by rw [h])
    | isFalse h => isFalse (by simpa using h)
  | .object x, .object y =>
    match decEqMembers x y with
    | isTrue h => isTrue (by rw [h])
    | isFalse h => isFalse (by simpa using h)
  | .null, .bool _ | .null, .number _ | .null, .string _ | .null, .array _ | .null, .object _
  | .bool _, .null | .bool _, .number _ | .bool _, .string _ | .bool _, .array _
  | .bool _, .object _ | .number _, .null | .number _, .bool _ | .number _, .string _
  | .number _, .array _ | .number _, .object _ | .string _, .null | .string _, .bool _
  | .string _, .number _ | .string _, .array _ | .string _, .object _ | .array _, .null
  | .array _, .bool _ | .array _, .number _ | .array _, .string _ | .array _, .object _
  | .object _, .null | .object _, .bool _ | .object _, .number _ | .object _, .string _
  | .object _, .array _ => isFalse (by simp)

/-- Equality of item lists is decidable. -/
def decEqItems : (a b : List Value) → Decidable (a = b)
  | [], [] => isTrue rfl
  | [], _ :: _ => isFalse (by simp)
  | _ :: _, [] => isFalse (by simp)
  | x :: xs, y :: ys =>
    match decEq x y, decEqItems xs ys with
    | isTrue h, isTrue hs => isTrue (by rw [h, hs])
    | isFalse h, _ => isFalse fun e => h (List.cons.inj e).1
    | _, isFalse hs => isFalse fun e => hs (List.cons.inj e).2

/-- Equality of member lists is decidable. -/
def decEqMembers : (a b : List (String × Value)) → Decidable (a = b)
  | [], [] => isTrue rfl
  | [], _ :: _ => isFalse (by simp)
  | _ :: _, [] => isFalse (by simp)
  | (k, x) :: xs, (l, y) :: ys =>
    if hk : k = l then
      match decEq x y, decEqMembers xs ys with
      | isTrue h, isTrue hs => isTrue (by rw [hk, h, hs])
      | isFalse h, _ => isFalse fun e => h (Prod.mk.inj (List.cons.inj e).1).2
      | _, isFalse hs => isFalse fun e => hs (List.cons.inj e).2
    else isFalse fun e => hk (Prod.mk.inj (List.cons.inj e).1).1

end

instance : DecidableEq Value := decEq

mutual

/-- How many arrays and objects enclose the innermost one, itself included. -/
def depth : Value → Nat
  | .array items => depthItems items + 1
  | .object members => depthMembers members + 1
  | _ => 0

/-- The greatest depth of the items. -/
def depthItems : List Value → Nat
  | [] => 0
  | v :: rest => max (depth v) (depthItems rest)

/-- The greatest depth of the members. -/
def depthMembers : List (String × Value) → Nat
  | [] => 0
  | (_, v) :: rest => max (depth v) (depthMembers rest)

end

mutual

/-- Every object in the value has its names in strictly ascending order. -/
def Ordered : Value → Prop
  | .array items => OrderedItems items
  | .object members => (members.map (·.1)).Pairwise (· < ·) ∧ OrderedMembers members
  | _ => True

/-- Every item is ordered. -/
def OrderedItems : List Value → Prop
  | [] => True
  | v :: rest => Ordered v ∧ OrderedItems rest

/-- Every member value is ordered. -/
def OrderedMembers : List (String × Value) → Prop
  | [] => True
  | (_, v) :: rest => Ordered v ∧ OrderedMembers rest

end

mutual

/-- No number in the value is a double. -/
def IntegersOnly : Value → Prop
  | .number (.double _) => False
  | .array items => IntegersOnlyItems items
  | .object members => IntegersOnlyMembers members
  | _ => True

/-- No number in the items is a double. -/
def IntegersOnlyItems : List Value → Prop
  | [] => True
  | v :: rest => IntegersOnly v ∧ IntegersOnlyItems rest

/-- No number in the members is a double. -/
def IntegersOnlyMembers : List (String × Value) → Prop
  | [] => True
  | (_, v) :: rest => IntegersOnly v ∧ IntegersOnlyMembers rest

end

theorem depthItems_le_iff {xs : List Value} {n : Nat} :
    depthItems xs ≤ n ↔ ∀ x ∈ xs, x.depth ≤ n := by
  induction xs with
  | nil => simp [depthItems]
  | cons x xs ih => rw [depthItems, Nat.max_le, ih, List.forall_mem_cons]

theorem depthMembers_le_iff {ms : List (String × Value)} {n : Nat} :
    depthMembers ms ≤ n ↔ ∀ m ∈ ms, m.2.depth ≤ n := by
  induction ms with
  | nil => simp [depthMembers]
  | cons m ms ih => rw [depthMembers, Nat.max_le, ih, List.forall_mem_cons]

theorem orderedItems_iff {xs : List Value} : OrderedItems xs ↔ ∀ x ∈ xs, x.Ordered := by
  induction xs with
  | nil => simp [OrderedItems]
  | cons x xs ih => simp [OrderedItems, ih]

theorem orderedMembers_iff {ms : List (String × Value)} :
    OrderedMembers ms ↔ ∀ m ∈ ms, m.2.Ordered := by
  induction ms with
  | nil => simp [OrderedMembers]
  | cons m ms ih => simp [OrderedMembers, ih]

end Value

/-- Puts a member into ascending members unless its name is there already. -/
def insertNew {α : Type} (name : String) (v : α) : List (String × α) → List (String × α)
  | [] => [(name, v)]
  | (k, w) :: rest =>
    if name < k then (name, v) :: (k, w) :: rest
    else if name = k then (k, w) :: rest
    else (k, w) :: insertNew name v rest

/-- Members in ascending order; of several with one name the last is kept. -/
def ordered {α : Type} (members : List (String × α)) : List (String × α) :=
  members.foldr (fun (name, v) rest => insertNew name v rest) []

namespace Value

/-- A member of an object. -/
def member? (v : Value) (name : String) : Option Value :=
  match v with
  | .object members => (members.find? (·.1 = name)).map (·.2)
  | _ => none

/-- The text of a string; other values have none. -/
def asText : Value → String
  | .string s => s
  | _ => ""

/-- The number that is no less than zero; other values count as zero. -/
def asNat : Value → Nat
  | .number (.integer i) => i.val.toNat
  | _ => 0

/-- The truth value; other values are not true. -/
def asBool : Value → Bool
  | .bool b => b
  | _ => false

/-- The items of an array; other values have none. -/
def items : Value → List Value
  | .array items => items
  | _ => []

end Value

end Json

end GossipDirectory
