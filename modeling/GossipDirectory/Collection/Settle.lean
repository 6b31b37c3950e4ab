/-!
# Running until nothing can proceed

A task is given by its actions and a partial step function. Several tasks proceed in any order; one
order is to take the first action that is possible, again and again.
-/

namespace GossipDirectory

variable {σ α : Type}

/-- The state after the first possible action. -/
def firstStep (step : σ → α → Option σ) : List α → σ → Option σ
  | [], _ => none
  | a :: rest, s =>
    match step s a with
    | some t => some t
    | none => firstStep step rest s

/-- Takes up to `fuel` actions, each time the first possible one. -/
def settle (step : σ → α → Option σ) (actions : List α) : Nat → σ → σ
  | 0, s => s
  | fuel + 1, s =>
    match firstStep step actions s with
    | some t => settle step actions fuel t
    | none => s

end GossipDirectory
