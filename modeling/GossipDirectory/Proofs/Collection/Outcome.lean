import Mathlib.Data.List.Forall2

/-!
# Chains of steps that can fail

A chain goes well exactly when each of its steps does, so a successful reading can be taken apart
from its last step backwards.
-/

namespace GossipDirectory

/-- A chain of two steps goes well exactly when both steps do. -/
theorem bind_eq_ok {ε α β : Type} {x : Except ε α} {f : α → Except ε β} {b : β} :
    (x >>= f) = .ok b ↔ ∃ a, x = .ok a ∧ f a = .ok b := by
  cases x with
  | error e => simp [bind, Except.bind]
  | ok a => simp [bind, Except.bind]

/-- Another wording of the failure does not make a step succeed. -/
theorem mapError_eq_ok {ε ε' α : Type} {x : Except ε α} {f : ε → ε'} {a : α} :
    x.mapError f = .ok a ↔ x = .ok a := by
  cases x with
  | error e => exact ⟨nofun, nofun⟩
  | ok b =>
      constructor
      · intro h
        cases h
        rfl
      · intro h
        cases h
        rfl

theorem map_eq_ok {ε α β : Type} {x : Except ε α} {f : α → β} {b : β} :
    x.map f = .ok b ↔ ∃ a, x = .ok a ∧ f a = b := by
  cases x with
  | error e => simp [Except.map]
  | ok a => simp [Except.map]

/-- What a chain gives, when it does not matter why it fails. -/
theorem toOption_bind {ε α β : Type} (x : Except ε α) (f : α → Except ε β) :
    (x >>= f).toOption = x.toOption.bind fun a => (f a).toOption := by
  cases x with
  | error e => rfl
  | ok a => rfl

theorem toOption_mapError {ε ε' α : Type} (x : Except ε α) (f : ε → ε') :
    (x.mapError f).toOption = x.toOption := by
  cases x with
  | error e => rfl
  | ok a => rfl

/-- Elements that read back one by one read back together. -/
theorem mapM_map_eq_pure {m : Type → Type} [Monad m] [LawfulMonad m] {α β : Type} {f : α → β}
    {g : β → m α} {xs : List α} (h : ∀ x ∈ xs, g (f x) = pure x) :
    (xs.map f).mapM g = pure xs := by
  induction xs with
  | nil => rfl
  | cons x xs ih =>
      rw [List.map_cons, List.mapM_cons, h x List.mem_cons_self,
        ih fun y hy => h y (List.mem_cons_of_mem x hy), pure_bind, pure_bind]

/-- A list of steps goes well exactly when each of them does. -/
theorem mapM_isOk_iff {ε α β : Type} {f : α → Except ε β} {xs : List α} :
    (∃ ys, xs.mapM f = .ok ys) ↔ ∀ x ∈ xs, ∃ y, f x = .ok y := by
  induction xs with
  | nil => exact iff_of_true ⟨[], rfl⟩ nofun
  | cons x xs ih =>
      rw [List.forall_mem_cons, ← ih, List.mapM_cons]
      constructor
      · rintro ⟨ys, h⟩
        obtain ⟨y, hy, h⟩ := bind_eq_ok.1 h
        obtain ⟨rest, hrest, -⟩ := bind_eq_ok.1 h
        exact ⟨⟨y, hy⟩, rest, hrest⟩
      · rintro ⟨⟨y, hy⟩, ys, hys⟩
        exact ⟨y :: ys, by rw [hy, hys]; rfl⟩

/-- A list of steps gives what each of them gives. -/
theorem mapM_eq_ok_iff {ε α β : Type} {f : α → Except ε β} {xs : List α} {ys : List β} :
    xs.mapM f = .ok ys ↔ List.Forall₂ (fun x y => f x = .ok y) xs ys := by
  induction xs generalizing ys with
  | nil =>
      rw [List.forall₂_nil_left_iff]
      exact ⟨fun h => (Except.ok.inj h).symm, fun h => congrArg Except.ok h.symm⟩
  | cons x xs ih =>
      rw [List.mapM_cons, bind_eq_ok, List.forall₂_cons_left_iff]
      constructor
      · rintro ⟨y, hy, h⟩
        obtain ⟨rest, hrest, h⟩ := bind_eq_ok.1 h
        exact ⟨y, rest, hy, ih.1 hrest, (Except.ok.inj h).symm⟩
      · rintro ⟨y, rest, hy, hrest, rfl⟩
        exact ⟨y, hy, bind_eq_ok.2 ⟨rest, ih.2 hrest, rfl⟩⟩

/-- A list of steps fails as the first one that does. -/
theorem mapM_eq_error_iff {ε α β : Type} {f : α → Except ε β} {xs : List α} {e : ε} :
    xs.mapM f = .error e ↔ ∃ before x after, xs = before ++ x :: after ∧
      (∀ b ∈ before, ∃ y, f b = .ok y) ∧ f x = .error e := by
  induction xs with
  | nil => simp [pure, Except.pure]
  | cons x xs ih =>
      simp only [List.mapM_cons, List.cons_eq_append_iff]
      cases hx : f x with
      | error e' =>
          constructor
          · intro h
            cases h
            exact ⟨[], x, xs, .inl ⟨rfl, rfl⟩, nofun, hx⟩
          · rintro ⟨before, b, after, ⟨rfl, h⟩ | ⟨before, rfl, -⟩, hbefore, hb⟩
            · cases h
              cases hx.symm.trans hb
              rfl
            · obtain ⟨y, hy⟩ := hbefore x List.mem_cons_self
              cases hx.symm.trans hy
      | ok y =>
          have hrest : (Except.ok y >>= fun y => xs.mapM f >>= fun ys => pure (y :: ys)) =
              .error e ↔ xs.mapM f = .error e := by
            cases xs.mapM f <;> simp [bind, Except.bind, pure, Except.pure]
          rw [hrest, ih]
          constructor
          · rintro ⟨before, b, after, rfl, hbefore, hb⟩
            refine ⟨x :: before, b, after, .inr ⟨before, rfl, rfl⟩, ?_, hb⟩
            exact List.forall_mem_cons.2 ⟨⟨y, hx⟩, hbefore⟩
          · rintro ⟨before, b, after, ⟨rfl, h⟩ | ⟨before, rfl, rfl⟩, hbefore, hb⟩
            · cases h
              cases hx.symm.trans hb
            · exact ⟨before, b, after, rfl, (List.forall_mem_cons.1 hbefore).2, hb⟩

/-- All elements get a value exactly if every one gets its own. -/
theorem mapM_eq_some_iff {α β : Type} {g : α → Option β} {xs : List α} {ys : List β} :
    xs.mapM g = some ys ↔ List.Forall₂ (fun x y => g x = some y) xs ys := by
  induction xs generalizing ys with
  | nil =>
      rw [List.forall₂_nil_left_iff, List.mapM_nil]
      exact ⟨fun h => by cases h; rfl, fun h => h ▸ rfl⟩
  | cons x xs ih =>
      rw [List.forall₂_cons_left_iff, List.mapM_cons]
      simp only [Option.bind_eq_bind, Option.bind_eq_some_iff, ih]
      constructor
      · rintro ⟨y, hy, ys, hys, h⟩
        cases h
        exact ⟨y, ys, hy, hys, rfl⟩
      · rintro ⟨y, ys, hy, hys, rfl⟩
        exact ⟨y, hy, ys, hys, rfl⟩

theorem length_eq_of_mapM_eq_some {α β : Type} {g : α → Option β} {xs : List α} {ys : List β}
    (h : xs.mapM g = some ys) : ys.length = xs.length :=
  (mapM_eq_some_iff.1 h).length_eq.symm

theorem isSome_of_mapM_eq_some {α β : Type} {g : α → Option β} {xs : List α} {ys : List β}
    (h : xs.mapM g = some ys) {x : α} (hx : x ∈ xs) : ∃ y, g x = some y := by
  obtain ⟨i, hi, rfl⟩ := List.mem_iff_getElem.1 hx
  have hvalues := mapM_eq_some_iff.1 h
  exact ⟨_, hvalues.get hi (hvalues.length_eq ▸ hi)⟩

/-- Values that are given under a condition are given together if all conditions hold. -/
theorem mapM_eq_ite {α β : Type} {f g : α → Option β} {p : α → Prop} [DecidablePred p]
    (h : ∀ x, g x = if p x then f x else none) (xs : List α) :
    xs.mapM g = if ∀ x ∈ xs, p x then xs.mapM f else none := by
  induction xs with
  | nil => exact (if_pos (by simp)).symm
  | cons x xs ih =>
      rw [List.mapM_cons, List.mapM_cons, h, ih]
      by_cases hx : p x
      · by_cases hxs : ∀ y ∈ xs, p y
        · rw [if_pos hx, if_pos hxs, if_pos (List.forall_mem_cons.2 ⟨hx, hxs⟩)]
        · rw [if_pos hx, if_neg hxs, if_neg fun hall => hxs (List.forall_mem_cons.1 hall).2]
          cases f x <;> rfl
      · rw [if_neg hx, if_neg fun hall => hx (List.forall_mem_cons.1 hall).1]
        rfl

theorem eq_ok_of_toOption {ε α : Type} {x : Except ε α} {a : α} (h : x.toOption = some a) :
    x = .ok a := by
  cases x with
  | error e => cases h
  | ok b =>
      cases h
      rfl

end GossipDirectory
