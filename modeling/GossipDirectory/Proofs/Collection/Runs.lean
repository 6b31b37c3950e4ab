/-!
# Runs

A system starts in a state and takes one step after the other. A run lists what has happened, the
latest last, so what its steps did so far, and what they did since something first happened, can be
read off it.
-/

namespace GossipDirectory

variable {σ α : Type}

/-- The states that allowed actions lead to, with these actions. -/
inductive Reaches (step : σ → α → Option σ) (allowed : σ → α → Prop) (start : σ) :
    List α → σ → Prop
  | start : Reaches step allowed start [] start
  | step {actions : List α} {s t : σ} {a : α} : Reaches step allowed start actions s →
    allowed s a → step s a = some t → Reaches step allowed start (actions ++ [a]) t

namespace Reaches

variable {step : σ → α → Option σ} {allowed : σ → α → Prop} {s t u : σ} {before after : List α}

theorem trans (h : Reaches step allowed s before t) (h' : Reaches step allowed t after u) :
    Reaches step allowed s (before ++ after) u := by
  induction h' with
  | start => simpa using h
  | step _ ha hstep ih =>
      rw [← List.append_assoc]
      exact ih.step ha hstep

theorem mono {allowed' : σ → α → Prop} (h : Reaches step allowed s before t)
    (hle : ∀ s a, allowed s a → allowed' s a) : Reaches step allowed' s before t := by
  induction h with
  | start => exact .start
  | step _ ha hstep ih => exact ih.step (hle _ _ ha) hstep

end Reaches

/-- The state after some actions, if a check admits each of them. -/
def replay (step : σ → α → Option σ) (check : σ → α → Bool) (s : σ) (actions : List α) :
    Option σ :=
  actions.foldlM (fun s a => if check s a then step s a else none) s

/-- What is replayed under a check is a run. -/
theorem reaches_of_replay {step : σ → α → Option σ} {allowed : σ → α → Prop} {s t : σ}
    (check : σ → α → Bool) (hcheck : ∀ s a, check s a = true → allowed s a) {actions : List α}
    (h : replay step check s actions = some t) : Reaches step allowed s actions t := by
  induction actions generalizing s with
  | nil =>
      cases h
      exact .start
  | cons a rest ih =>
      rw [replay, List.foldlM_cons] at h
      obtain ⟨next, hnext, hrest⟩ := Option.bind_eq_some_iff.1 h
      rw [Option.ite_none_right_eq_some] at hnext
      have hfirst : Reaches step allowed s [a] next :=
        Reaches.start.step (hcheck s a hnext.1) hnext.2
      exact hfirst.trans (ih hrest)

/-! ## What happened since -/

section Since

variable [DecidableEq α] {x : α} {xs : List α}

/-- What comes after the first occurrence of an element. -/
def since (x : α) : List α → List α
  | [] => []
  | y :: rest => if y = x then rest else since x rest

theorem since_suffix (x : α) (xs : List α) : since x xs <:+ xs := by
  induction xs with
  | nil => exact List.nil_suffix
  | cons y rest ih =>
      rw [since]
      split
      · exact List.suffix_cons y rest
      · exact ih.trans (List.suffix_cons y rest)

theorem since_of_not_mem (h : x ∉ xs) : since x xs = [] := by
  induction xs with
  | nil => rfl
  | cons y rest ih =>
      rw [List.mem_cons, not_or] at h
      rw [since, if_neg (Ne.symm h.1)]
      exact ih h.2

theorem since_append_of_mem (h : x ∈ xs) (more : List α) :
    since x (xs ++ more) = since x xs ++ more := by
  induction xs with
  | nil => cases h
  | cons y rest ih =>
      rw [List.cons_append, since, since]
      by_cases hy : y = x
      · rw [if_pos hy, if_pos hy]
      · rw [if_neg hy, if_neg hy]
        exact ih ((List.mem_cons.1 h).resolve_left (Ne.symm hy))

/-- The first occurrence itself does not come after it. -/
theorem since_snoc_of_not_mem (h : x ∉ xs) (y : α) : since x (xs ++ [y]) = [] := by
  induction xs with
  | nil => simp [since]
  | cons z rest ih =>
      rw [List.mem_cons, not_or] at h
      rw [List.cons_append, since, if_neg (Ne.symm h.1)]
      exact ih h.2

end Since

end GossipDirectory
