import Mathlib.Data.List.Induction

/-!
# The past of a history

A history lists what happened, the latest last. What may happen next, and what is the case now, can
depend on all that came before. Three ways to speak of the past are used here: something was so at
every moment, something happened once, and something has been so ever since a moment. What each
moment gives, seen from its past, is gathered into one list. Each of these says how it changes when
a history grows at its end.
-/

namespace GossipDirectory

variable {α : Type} {p start keeps : List α → α → Prop} {h : List α} {x : α}

/-- Everything in a history was as it should be, given what came before it. -/
def Throughout (p : List α → α → Prop) (h : List α) : Prop :=
  ∀ before x after, h = before ++ x :: after → p before x

/-- Something in a history was so, given what came before it. -/
def Happened (p : List α → α → Prop) (h : List α) : Prop :=
  ∃ before x after, h = before ++ x :: after ∧ p before x

/-- Something in a history was a start, and everything after it kept what was started. -/
def EverSince (start keeps : List α → α → Prop) (h : List α) : Prop :=
  ∃ before x after, h = before ++ x :: after ∧ start before x ∧
    Throughout (fun more => keeps (before ++ x :: more)) after

/-- A place in a longer history is its end or a place in the shorter one. -/
theorem snoc_eq_append_cons_iff {before after : List α} {y : α} :
    h ++ [x] = before ++ y :: after ↔
      (h = before ∧ x = y ∧ after = []) ∨
        ∃ rest, h = before ++ y :: rest ∧ after = rest ++ [x] := by
  constructor
  · intro heq
    cases after using List.reverseRecOn with
    | nil =>
        obtain ⟨hbefore, hx⟩ := List.append_inj' heq rfl
        exact .inl ⟨hbefore, (List.cons.inj hx).1, rfl⟩
    | append_singleton rest last =>
        rw [← List.cons_append, ← List.append_assoc] at heq
        obtain ⟨hrest, hx⟩ := List.append_inj' heq rfl
        exact .inr ⟨rest, hrest, by rw [hx]⟩
  · rintro (⟨rfl, rfl, rfl⟩ | ⟨rest, rfl, rfl⟩)
    · rfl
    · simp

@[simp] theorem throughout_nil (p : List α → α → Prop) : Throughout p [] :=
  fun _ _ _ heq => by simp at heq

theorem throughout_snoc : Throughout p (h ++ [x]) ↔ Throughout p h ∧ p h x := by
  constructor
  · intro hall
    refine ⟨fun before y rest heq => ?_, hall h x [] rfl⟩
    exact hall before y (rest ++ [x]) (snoc_eq_append_cons_iff.2 (.inr ⟨rest, heq, rfl⟩))
  · rintro ⟨hall, hlast⟩ before y after heq
    rcases snoc_eq_append_cons_iff.1 heq with ⟨rfl, rfl, -⟩ | ⟨rest, hrest, -⟩
    · exact hlast
    · exact hall before y rest hrest

@[simp] theorem not_happened_nil (p : List α → α → Prop) : ¬Happened p [] := by
  rintro ⟨before, x, after, heq, -⟩
  simp at heq

theorem happened_snoc : Happened p (h ++ [x]) ↔ Happened p h ∨ p h x := by
  constructor
  · rintro ⟨before, y, after, heq, hy⟩
    rcases snoc_eq_append_cons_iff.1 heq with ⟨rfl, rfl, -⟩ | ⟨rest, hrest, -⟩
    · exact .inr hy
    · exact .inl ⟨before, y, rest, hrest, hy⟩
  · rintro (⟨before, y, rest, heq, hy⟩ | hlast)
    · exact ⟨before, y, _, snoc_eq_append_cons_iff.2 (.inr ⟨rest, heq, rfl⟩), hy⟩
    · exact ⟨h, x, [], rfl, hlast⟩

/-- What does not depend on the past happened if it is in the history. -/
theorem happened_iff_exists_mem {q : α → Prop} : Happened (fun _ x => q x) h ↔ ∃ x ∈ h, q x := by
  constructor
  · rintro ⟨before, x, after, rfl, hx⟩
    exact ⟨x, by simp, hx⟩
  · rintro ⟨x, hmem, hx⟩
    obtain ⟨before, after, rfl⟩ := List.append_of_mem hmem
    exact ⟨before, x, after, rfl, hx⟩

@[simp] theorem not_everSince_nil (start keeps : List α → α → Prop) :
    ¬EverSince start keeps [] := by
  rintro ⟨before, x, after, heq, -⟩
  simp at heq

/-- What is so ever since starts now, or was so already and is kept. -/
theorem everSince_snoc :
    EverSince start keeps (h ++ [x]) ↔ start h x ∨ EverSince start keeps h ∧ keeps h x := by
  constructor
  · rintro ⟨before, y, after, heq, hstart, hkeeps⟩
    rcases snoc_eq_append_cons_iff.1 heq with ⟨rfl, rfl, -⟩ | ⟨rest, rfl, rfl⟩
    · exact .inl hstart
    · obtain ⟨hrest, hlast⟩ := throughout_snoc.1 hkeeps
      exact .inr ⟨⟨before, y, rest, rfl, hstart, hrest⟩, hlast⟩
  · rintro (hstart | ⟨⟨before, y, rest, rfl, hstart, hkeeps⟩, hlast⟩)
    · exact ⟨h, x, [], rfl, hstart, throughout_nil _⟩
    · exact ⟨before, y, rest ++ [x], by simp, hstart, throughout_snoc.2 ⟨hkeeps, hlast⟩⟩

/-! ## What a history gives -/

section Gather

variable {β : Type} (f : List α → α → List β)

/-- What the things after a past give, each seen from what came before it. -/
def gatherFrom (past : List α) : List α → List β
  | [] => []
  | x :: rest => f past x ++ gatherFrom (past ++ [x]) rest

/-- What everything in a history gives, given what came before it. -/
def gather (h : List α) : List β :=
  gatherFrom f [] h

theorem gatherFrom_append (past before after : List α) :
    gatherFrom f past (before ++ after) =
      gatherFrom f past before ++ gatherFrom f (past ++ before) after := by
  induction before generalizing past with
  | nil => simp [gatherFrom]
  | cons x rest ih => simp [gatherFrom, ih]

@[simp] theorem gather_nil : gather f [] = [] := rfl

theorem gather_append (before after : List α) :
    gather f (before ++ after) = gather f before ++ gatherFrom f before after :=
  gatherFrom_append f [] before after

theorem gather_snoc (h : List α) (x : α) : gather f (h ++ [x]) = gather f h ++ f h x := by
  rw [gather_append, gatherFrom, gatherFrom, List.append_nil]

end Gather

end GossipDirectory
