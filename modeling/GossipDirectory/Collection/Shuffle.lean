/-!
# Random orders

A shuffle moves elements one by one to a new list; each draw says which one comes next. The draws
are a parameter, so statements about shuffles hold for every outcome.
-/

namespace GossipDirectory

/-- The list in the order that the draws choose; elements beyond the draws keep their order. -/
def shuffle {α : Type} : List Nat → List α → List α
  | [], xs => xs
  | draw :: draws, xs =>
    let place := draw % xs.length
    match xs.drop place with
    | [] => []
    | x :: _ => x :: shuffle draws (xs.eraseIdx place)

theorem shuffle_perm {α : Type} (draws : List Nat) (xs : List α) :
    (shuffle draws xs).Perm xs := by
  induction draws generalizing xs with
  | nil => exact List.Perm.refl _
  | cons draw draws ih =>
    simp only [shuffle]
    cases h : xs.drop (draw % xs.length) with
    | nil =>
      cases xs with
      | nil => exact List.Perm.refl _
      | cons x rest =>
        have hlt : draw % (x :: rest).length < (x :: rest).length := Nat.mod_lt _ (by simp)
        have := congrArg List.length h
        simp only [List.length_drop, List.length_nil] at this
        omega
    | cons x rest =>
      have hsplit := List.take_append_drop (draw % xs.length) xs
      have herase : xs.eraseIdx (draw % xs.length) = xs.take (draw % xs.length) ++ rest := by
        rw [List.eraseIdx_eq_take_drop_succ, ← List.drop_drop, h]
        rfl
      rw [herase]
      refine ((ih _).cons x).trans ?_
      calc (x :: (xs.take (draw % xs.length) ++ rest)).Perm
            (xs.take (draw % xs.length) ++ x :: rest) := List.perm_middle.symm
        _ = xs := by rw [← h, hsplit]

end GossipDirectory
