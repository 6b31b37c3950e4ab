import GossipDirectory.Json.Reader
import GossipDirectory.Proofs.Collection.Outcome

/-!
# The shape of what was read

Whatever bytes come in, a value that a reader returns keeps the members of its objects in ascending
order and nests no deeper than the budget of levels. Both follow from one statement about a
repetition: what each item or member keeps holds after all of them.
-/

namespace GossipDirectory

namespace Json

/-- What the readers make of a value: its objects are in order and it nests no deeper than the
budget. -/
def Value.Shaped (budget : Nat) (v : Value) : Prop :=
  v.Ordered ∧ v.depth ≤ budget

theorem mem_insertNew {α : Type} {name : String} {v : α} {ms : List (String × α)}
    {m : String × α} (h : m ∈ insertNew name v ms) : m = (name, v) ∨ m ∈ ms := by
  induction ms with
  | nil =>
      simp only [insertNew, List.mem_singleton] at h
      exact .inl h
  | cons m' ms ih =>
      obtain ⟨k, w⟩ := m'
      simp only [insertNew] at h
      split at h
      · simpa using h
      · split at h
        · exact .inr h
        · rcases List.mem_cons.1 h with h | h
          · exact .inr (List.mem_cons.2 (.inl h))
          · exact (ih h).imp_right (List.mem_cons_of_mem _)

theorem pairwise_insertNew {α : Type} {name : String} {v : α} {ms : List (String × α)}
    (h : (ms.map (·.1)).Pairwise (· < ·)) :
    ((insertNew name v ms).map (·.1)).Pairwise (· < ·) := by
  induction ms with
  | nil => simp [insertNew]
  | cons m ms ih =>
      obtain ⟨k, w⟩ := m
      simp only [List.map_cons, List.pairwise_cons, List.mem_map] at h
      simp only [insertNew]
      split
      · next hlt =>
          simp only [List.map_cons, List.pairwise_cons, List.mem_cons, List.mem_map]
          refine ⟨?_, h.1, h.2⟩
          rintro a (rfl | ha)
          · exact hlt
          · exact Std.lt_trans hlt (h.1 a (by simpa using ha))
      · split
        · simpa using h
        · next hlt hne =>
            simp only [List.map_cons, List.pairwise_cons, List.mem_map]
            refine ⟨?_, ih h.2⟩
            rintro a ⟨m, hm, rfl⟩
            rcases mem_insertNew hm with rfl | hm
            · exact Std.lt_of_le_of_ne (Std.not_lt.1 hlt) (Ne.symm hne)
            · exact h.1 m.1 ⟨m, hm, rfl⟩

theorem pairwise_ordered {α : Type} (ms : List (String × α)) :
    ((ordered ms).map (·.1)).Pairwise (· < ·) := by
  induction ms with
  | nil => simp [ordered]
  | cons m ms ih => exact pairwise_insertNew ih

theorem mem_of_mem_ordered {α : Type} {ms : List (String × α)} {m : String × α}
    (h : m ∈ ordered ms) : m ∈ ms := by
  induction ms with
  | nil => cases h
  | cons m' ms ih =>
      rcases mem_insertNew h with rfl | h
      · exact List.mem_cons_self
      · exact List.mem_cons_of_mem m' (ih h)

theorem items_forall {α : Type} {item : Reader α} {P : α → Prop}
    (h : ∀ bytes x rest, item bytes = .ok (x, rest) → P x) {fuel : Nat} {bytes rest : Bytes}
    {xs : List α} (hread : items item fuel bytes = .ok (xs, rest)) : ∀ x ∈ xs, P x := by
  induction fuel generalizing bytes xs with
  | zero => simp [items] at hread
  | succ fuel ih =>
      rw [items, bind_eq_ok] at hread
      obtain ⟨⟨x, after⟩, hx, hread⟩ := hread
      have hP := h bytes x after hx
      simp only at hread
      split at hread
      · rw [bind_eq_ok] at hread
        obtain ⟨⟨ys, after'⟩, hys, hread⟩ := hread
        simp only [Except.ok.injEq, Prod.mk.injEq] at hread
        obtain ⟨rfl, rfl⟩ := hread
        intro y hy
        rcases List.mem_cons.1 hy with rfl | hy
        · exact hP
        · exact ih hys y hy
      · simp only [Except.ok.injEq, Prod.mk.injEq] at hread
        obtain ⟨rfl, rfl⟩ := hread
        simpa using hP
      · cases hread

theorem arrayItems_forall {α : Type} {item : Reader α} {P : α → Prop}
    (h : ∀ bytes x rest, item bytes = .ok (x, rest) → P x) {bytes rest : Bytes}
    {xs : List α} (hread : arrayItems item bytes = .ok (xs, rest)) : ∀ x ∈ xs, P x := by
  rw [arrayItems] at hread
  split at hread
  · simp only [Except.ok.injEq, Prod.mk.injEq] at hread
    obtain ⟨rfl, rfl⟩ := hread
    simp
  · exact items_forall h hread

/-- What every member keeps holds after all of them. -/
theorem members_invariant {σ : Type} {name : Reader String} {step : σ → String → Reader σ}
    (Inv : σ → Prop)
    (h : ∀ s k bytes t rest, Inv s → step s k bytes = .ok (t, rest) → Inv t)
    {fuel : Nat} {bytes rest : Bytes} {s t : σ} (hs : Inv s)
    (hread : members name step fuel s bytes = .ok (t, rest)) : Inv t := by
  induction fuel generalizing bytes s with
  | zero => simp [members] at hread
  | succ fuel ih =>
      rw [members] at hread
      split at hread
      · rw [bind_eq_ok] at hread
        obtain ⟨⟨k, after⟩, -, hread⟩ := hread
        rw [bind_eq_ok] at hread
        obtain ⟨⟨u, after'⟩, hu, hread⟩ := hread
        have hInv := h s k after u after' hs hu
        simp only at hread
        split at hread
        · exact ih hInv hread
        · simp only [Except.ok.injEq, Prod.mk.injEq] at hread
          obtain ⟨rfl, rfl⟩ := hread
          exact hInv
        · cases hread
      · cases hread

theorem objectMembers_invariant {σ : Type} {name : Reader String} {step : σ → String → Reader σ}
    (Inv : σ → Prop)
    (h : ∀ s k bytes t rest, Inv s → step s k bytes = .ok (t, rest) → Inv t)
    {bytes rest : Bytes} {s t : σ} (hs : Inv s)
    (hread : objectMembers name step s bytes = .ok (t, rest)) : Inv t := by
  rw [objectMembers] at hread
  split at hread
  · simp only [Except.ok.injEq, Prod.mk.injEq] at hread
    obtain ⟨rfl, rfl⟩ := hread
    exact hs
  · exact members_invariant Inv h hs hread

theorem scalar_shaped {budget : Nat} {bytes rest : Bytes} {v : Value}
    (h : scalar bytes = .ok (v, rest)) : v.Shaped budget := by
  rw [scalar] at h
  split at h <;> rw [bind_eq_ok] at h <;> obtain ⟨a, -, h⟩ := h <;>
    simp only [Except.ok.injEq, Prod.mk.injEq] at h <;> obtain ⟨rfl, -⟩ := h <;>
    exact ⟨trivial, Nat.zero_le budget⟩

theorem memberValue_eq_ok {item : Reader Value} {acc ms : List (String × Value)} {name : String}
    {bytes rest : Bytes} (h : memberValue item acc name bytes = .ok (ms, rest)) :
    ∃ v before, item before = .ok (v, rest) ∧ ms = (name, v) :: acc := by
  rw [memberValue, bind_eq_ok] at h
  obtain ⟨before, -, h⟩ := h
  rw [bind_eq_ok] at h
  obtain ⟨⟨v, after⟩, hv, h⟩ := h
  simp only [Except.ok.injEq, Prod.mk.injEq] at h
  obtain ⟨rfl, rfl⟩ := h
  exact ⟨v, before, hv, rfl⟩

/-- Whatever the bytes are, a value that was read has its objects in order and nests no deeper than
the budget. -/
theorem value_shaped {budget : Nat} {bytes rest : Bytes} {v : Value}
    (h : value budget bytes = .ok (v, rest)) : v.Shaped budget := by
  induction budget generalizing bytes v rest with
  | zero => exact scalar_shaped h
  | succ budget ih =>
      rw [value] at h
      split at h
      · rw [bind_eq_ok] at h
        obtain ⟨⟨xs, after⟩, hxs, h⟩ := h
        simp only [Except.ok.injEq, Prod.mk.injEq] at h
        obtain ⟨rfl, rfl⟩ := h
        have hall := arrayItems_forall (fun _ _ _ hx => ih hx) hxs
        refine ⟨Value.orderedItems_iff.2 fun x hx => (hall x hx).1, ?_⟩
        exact Nat.succ_le_succ (Value.depthItems_le_iff.2 fun x hx => (hall x hx).2)
      · rw [bind_eq_ok] at h
        obtain ⟨⟨ms, after⟩, hms, h⟩ := h
        simp only [Except.ok.injEq, Prod.mk.injEq] at h
        obtain ⟨rfl, rfl⟩ := h
        have hall : ∀ m ∈ ms, m.2.Shaped budget := by
          refine objectMembers_invariant (fun ms => ∀ m ∈ ms, m.2.Shaped budget)
            ?_ (by simp) hms
          intro acc name bytes ms rest hacc hstep
          obtain ⟨v, before, hv, rfl⟩ := memberValue_eq_ok hstep
          intro m hm
          rcases List.mem_cons.1 hm with rfl | hm
          · exact ih hv
          · exact hacc m hm
        have hmem : ∀ m ∈ ordered ms.reverse, m.2.Shaped budget := fun m hm =>
          hall m (List.mem_reverse.1 (mem_of_mem_ordered hm))
        refine ⟨⟨pairwise_ordered _, Value.orderedMembers_iff.2 fun m hm => (hmem m hm).1⟩, ?_⟩
        exact Nat.succ_le_succ (Value.depthMembers_le_iff.2 fun m hm => (hmem m hm).2)
      · exact scalar_shaped h

theorem nextItem_eq_ok {α : Type} {first : Bool} {item : Reader α} {bytes rest : Bytes} {x : α}
    (h : nextItem first item bytes = .ok (some x, rest)) :
    ∃ before after, item before = .ok (x, after) := by
  have read : ∀ before, (item before >>= fun p => Except.ok (some p.1, p.2)) =
      Except.ok (some x, rest) → ∃ before after, item before = .ok (x, after) := by
    intro before h
    simp only [bind_eq_ok, Except.ok.injEq, Prod.mk.injEq, Option.some.injEq] at h
    obtain ⟨⟨y, after⟩, hy, rfl, -⟩ := h
    exact ⟨before, after, hy⟩
  rw [nextItem] at h
  split at h
  · simp at h
  · split at h
    · exact read _ h
    · split at h
      · cases h
      · exact read _ h
  · split at h
    · exact read _ h
    · cases h

theorem refuse_ne_ok {α : Type} {expected : String} {bytes rest : Bytes} {x : α} :
    refuse expected bytes ≠ .ok (x, rest) := by
  intro h
  rw [refuse] at h
  split at h
  · cases h
  · cases h
  · simp [bind_eq_ok] at h

end Json

end GossipDirectory
