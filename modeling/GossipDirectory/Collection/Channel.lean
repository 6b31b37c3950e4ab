/-!
# Bounded channels

A channel holds up to `capacity` items between its senders and its receiver. Once the senders are
gone no item is added; once the receiver is gone the items are dropped.
-/

namespace GossipDirectory

/-- A channel between tasks. -/
structure Channel (α : Type) where
  capacity : Nat
  items : List α := []
  /-- Some sender is left. -/
  fed : Bool := true
  /-- The receiver is left. -/
  heard : Bool := true
  deriving DecidableEq, Repr

namespace Channel

variable {α : Type}

/-- Another item fits. -/
def hasRoom (c : Channel α) : Bool :=
  c.items.length < c.capacity

/-- The channel with one more item, if it fits and there is a receiver. -/
def send? (c : Channel α) (x : α) : Option (Channel α) :=
  if c.heard && c.hasRoom then some { c with items := c.items ++ [x] } else none

/-- The next item. -/
def receive? (c : Channel α) : Option (α × Channel α) :=
  match c.items with
  | x :: rest => some (x, { c with items := rest })
  | [] => none

/-- Nothing is left and nothing will come. -/
def exhausted (c : Channel α) : Bool :=
  c.items.isEmpty && !c.fed

/-- The channel without its senders. -/
def closeInput (c : Channel α) : Channel α :=
  { c with fed := false }

/-- The channel without its receiver. -/
def closeOutput (c : Channel α) : Channel α :=
  { c with items := [], heard := false }

theorem send?_eq_some_iff {c d : Channel α} {x : α} :
    c.send? x = some d ↔
      c.heard = true ∧ c.items.length < c.capacity ∧ d = { c with items := c.items ++ [x] } := by
  simp only [send?, hasRoom, Bool.and_eq_true, decide_eq_true_eq]
  constructor
  · intro h
    split at h
    · rename_i hc
      exact ⟨hc.1, hc.2, (Option.some.inj h).symm⟩
    · cases h
  · rintro ⟨hh, hl, rfl⟩
    simp [hh, hl]

theorem receive?_eq_some_iff {c d : Channel α} {x : α} :
    c.receive? = some (x, d) ↔ c.items = x :: d.items ∧ d = { c with items := d.items } := by
  cases hi : c.items with
  | nil => simp [receive?, hi]
  | cons y rest =>
    simp only [receive?, hi, Option.some.injEq, Prod.mk.injEq, List.cons.injEq]
    constructor
    · rintro ⟨rfl, rfl⟩
      exact ⟨⟨rfl, rfl⟩, rfl⟩
    · rintro ⟨⟨rfl, rfl⟩, hd⟩
      exact ⟨rfl, hd.symm⟩

end Channel

end GossipDirectory
