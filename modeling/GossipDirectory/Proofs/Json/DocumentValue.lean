import GossipDirectory.Proofs.Collection.Outcome
import GossipDirectory.Proofs.Json.Grammar
import GossipDirectory.Proofs.Json.ReadShape
import Mathlib.Data.List.Nodup
import Mathlib.Data.List.Perm.Basic

/-!
# What a document stands for

A document stands for a value exactly if its strings pair their surrogates and its numerals are in
range. Looking a name up in the value of an object finds the last of the members that bear it, and
members with distinct names may be listed in any order without a difference to the value.
-/

namespace GossipDirectory

namespace Json

/-- The value of the first member with a name. -/
def lookup {α : Type} (name : String) (ms : List (String × α)) : Option α :=
  (ms.find? (·.1 = name)).map (·.2)

section Members

variable {α : Type} {ms ms' : List (String × α)}

theorem lookup_cons (name : String) (m : String × α) (ms : List (String × α)) :
    lookup name (m :: ms) = if m.1 = name then some m.2 else lookup name ms := by
  by_cases h : m.1 = name
  · simp [lookup, h]
  · simp [lookup, h]

theorem lookup_append (name : String) (ms ms' : List (String × α)) :
    lookup name (ms ++ ms') = (lookup name ms).or (lookup name ms') := by
  induction ms with
  | nil => rfl
  | cons m ms ih =>
      rw [List.cons_append, lookup_cons, lookup_cons, ih]
      split
      · rfl
      · rfl

theorem lookup_eq_none {name : String} (h : ∀ m ∈ ms, m.1 ≠ name) : lookup name ms = none := by
  have hfind : ms.find? (·.1 = name) = none :=
    List.find?_eq_none.2 fun m hm => by simpa using h m hm
  rw [lookup, hfind]
  rfl

/-- A member that is put into ascending members is found unless its name was there before. -/
theorem lookup_insertNew (h : (ms.map (·.1)).Pairwise (· < ·)) (k name : String) (v : α) :
    lookup k (insertNew name v ms) = (lookup k ms).or (if name = k then some v else none) := by
  induction ms with
  | nil => simp [insertNew, lookup]
  | cons m ms ih =>
      obtain ⟨l, w⟩ := m
      rw [List.map_cons, List.pairwise_cons] at h
      rw [insertNew]
      by_cases hlt : name < l
      · rw [if_pos hlt, lookup_cons]
        by_cases hk : name = k
        · have habsent : lookup k ((l, w) :: ms) = none := by
            apply lookup_eq_none
            rintro m hm rfl
            subst hk
            rcases List.mem_cons.1 hm with rfl | hm
            · exact Std.lt_irrefl hlt
            · exact Std.lt_irrefl (Std.lt_trans (h.1 m.1 (List.mem_map_of_mem hm)) hlt)
          rw [if_pos hk, if_pos hk, habsent]
          rfl
        · rw [if_neg hk, if_neg hk, Option.or_none]
      · rw [if_neg hlt]
        by_cases heq : name = l
        · rw [if_pos heq]
          by_cases hk : name = k
          · rw [lookup_cons, if_pos (heq.symm.trans hk)]
            rfl
          · rw [if_neg hk, Option.or_none]
        · rw [if_neg heq, lookup_cons, lookup_cons, ih h.2]
          split
          · rfl
          · rfl

/-- The last of the members with a name is the one that counts. -/
theorem lookup_ordered (name : String) (ms : List (String × α)) :
    lookup name (ordered ms) = lookup name ms.reverse := by
  induction ms with
  | nil => rfl
  | cons m ms ih =>
      change lookup name (insertNew m.1 m.2 (ordered ms)) = _
      rw [lookup_insertNew (pairwise_ordered ms), List.reverse_cons, lookup_append, ih, lookup_cons]
      rfl

theorem insertNew_perm {name : String} {v : α} (h : ∀ m ∈ ms, m.1 ≠ name) :
    (insertNew name v ms).Perm ((name, v) :: ms) := by
  induction ms with
  | nil => exact .refl _
  | cons m ms ih =>
      obtain ⟨l, w⟩ := m
      rw [insertNew]
      split
      · exact .refl _
      · rw [if_neg fun heq => h (l, w) List.mem_cons_self heq.symm]
        exact ((ih fun m hm => h m (List.mem_cons_of_mem _ hm)).cons _).trans (.swap _ _ _)

theorem ordered_perm (h : (ms.map (·.1)).Nodup) : (ordered ms).Perm ms := by
  induction ms with
  | nil => exact .refl _
  | cons m ms ih =>
      rw [List.map_cons, List.nodup_cons] at h
      have hnew : ∀ m' ∈ ordered ms, m'.1 ≠ m.1 := by
        intro m' hm' heq
        exact h.1 (heq ▸ List.mem_map_of_mem (mem_of_mem_ordered hm'))
      exact (insertNew_perm hnew).trans ((ih h.2).cons m)

/-- The order in which members with distinct names are listed makes no difference. -/
theorem ordered_eq_of_perm (h : ms.Perm ms') (hnames : (ms.map (·.1)).Nodup) :
    ordered ms = ordered ms' := by
  have hperm : (ordered ms).Perm (ordered ms') :=
    (ordered_perm hnames).trans (h.trans (ordered_perm ((h.map _).nodup_iff.1 hnames)).symm)
  have hsorted := List.pairwise_map.1 (pairwise_ordered ms)
  have hsorted' := List.pairwise_map.1 (pairwise_ordered ms')
  refine hperm.eq_of_pairwise ?_ hsorted hsorted'
  intro a b _ _ hab hba
  exact absurd (Std.lt_trans hab hba) Std.lt_irrefl

end Members

namespace Document

/-! ## Items and members -/

theorem depthItems_le_iff {xs : List Document} {n : Nat} :
    depthItems xs ≤ n ↔ ∀ x ∈ xs, x.depth ≤ n := by
  induction xs with
  | nil => simp [depthItems]
  | cons x xs ih => rw [depthItems, Nat.max_le, ih, List.forall_mem_cons]

theorem depthMembers_le_iff {ms : List (Units × Document)} {n : Nat} :
    depthMembers ms ≤ n ↔ ∀ m ∈ ms, m.2.depth ≤ n := by
  induction ms with
  | nil => simp [depthMembers]
  | cons m ms ih => rw [depthMembers, Nat.max_le, ih, List.forall_mem_cons]

/-- The name that a member stands for, with what is read of its document. -/
def member? (read : Document → Option Value) (m : Units × Document) :
    Option (String × Value) := do
  let name ← m.1.text?
  let v ← read m.2
  some (name, v)

theorem values?_eq_mapM (xs : List Document) : values? xs = xs.mapM value? := by
  induction xs with
  | nil => rfl
  | cons x xs ih =>
      rw [values?, ih, List.mapM_cons]
      rfl

theorem members?_eq_mapM (ms : List (Units × Document)) : members? ms = ms.mapM (member? value?) := by
  induction ms with
  | nil => rfl
  | cons m ms ih =>
      obtain ⟨name, d⟩ := m
      rw [members?, ih, List.mapM_cons, member?]
      cases name.text? with
      | none => rfl
      | some k =>
          cases d.value? with
          | none => rfl
          | some v => rfl

/-! ## Levels -/

/-- What is read of a document by someone who has so many levels for its arrays and objects. -/
def within? (budget : Nat) (d : Document) : Option Value :=
  if d.depth ≤ budget then d.value? else none

theorem within?_of_depth_le {budget : Nat} {d : Document} (h : d.depth ≤ budget) :
    d.within? budget = d.value? :=
  if_pos h

/-- Each array takes a level for its items. -/
theorem within?_array (budget : Nat) (xs : List Document) :
    (array xs).within? (budget + 1) = (xs.mapM (within? budget)).map .array := by
  rw [mapM_eq_ite (fun x => by rfl), within?, depth, value?, values?_eq_mapM]
  simp only [Nat.add_le_add_iff_right, depthItems_le_iff]
  split <;> rfl

/-- Each object takes a level for the values of its members. -/
theorem within?_object (budget : Nat) (ms : List (Units × Document)) :
    (object ms).within? (budget + 1) =
      (ms.mapM (member? (within? budget))).map fun read => .object (ordered read) := by
  have hmember : ∀ m, member? (within? budget) m =
      if m.2.depth ≤ budget then member? value? m else none := by
    intro m
    rw [member?, member?, within?]
    split
    · rfl
    · cases m.1.text? <;> rfl
  rw [mapM_eq_ite hmember, within?, depth, value?, members?_eq_mapM]
  simp only [Nat.add_le_add_iff_right, depthMembers_le_iff]
  split <;> rfl

/-- Nothing is read of an array or an object without a level. -/
theorem within?_zero {d : Document} (h : d.depth ≠ 0) : d.within? 0 = none :=
  if_neg fun hle => h (Nat.le_zero.1 hle)

/-! ## All parts -/

theorem allItems_iff {P : Units → Prop} {Q : Numeral → Prop} {xs : List Document} :
    AllItems P Q xs ↔ ∀ x ∈ xs, x.All P Q := by
  induction xs with
  | nil => simp [AllItems]
  | cons x xs ih => simp [AllItems, ih]

theorem allMembers_iff {P : Units → Prop} {Q : Numeral → Prop} {ms : List (Units × Document)} :
    AllMembers P Q ms ↔ ∀ m ∈ ms, P m.1 ∧ m.2.All P Q := by
  induction ms with
  | nil => simp [AllMembers]
  | cons m ms ih => simp [AllMembers, ih]

/-! ## Documents that stand for a value -/

mutual

/-- A document stands for a value exactly if all its strings and numerals do. -/
theorem isSome_value?_iff : (d : Document) → (d.value?.isSome ↔ d.Paired ∧ d.InRange)
  | .null => ⟨fun _ => ⟨trivial, trivial⟩, fun _ => rfl⟩
  | .bool _ => ⟨fun _ => ⟨trivial, trivial⟩, fun _ => rfl⟩
  | .number n => by
    rw [value?, Option.isSome_map]
    exact ⟨fun h => ⟨trivial, h⟩, fun h => h.2⟩
  | .string units => by
    rw [value?, Option.isSome_map]
    exact ⟨fun h => ⟨h, trivial⟩, fun h => h.1⟩
  | .array xs => by
    rw [value?, Option.isSome_map, isSome_values?_iff xs]
    rfl
  | .object ms => by
    rw [value?, Option.isSome_map, isSome_members?_iff ms]
    rfl

theorem isSome_values?_iff : (xs : List Document) → ((values? xs).isSome ↔
    AllItems (·.text?.isSome) (fun _ => True) xs ∧ AllItems (fun _ => True) (·.number?.isSome) xs)
  | [] => ⟨fun _ => ⟨trivial, trivial⟩, fun _ => rfl⟩
  | x :: xs => by
    have hcons : (values? (x :: xs)).isSome ↔ x.value?.isSome ∧ (values? xs).isSome := by
      rw [values?]
      cases x.value? <;> cases values? xs <;> simp
    rw [hcons, isSome_value?_iff x, isSome_values?_iff xs]
    exact and_and_and_comm

theorem isSome_members?_iff : (ms : List (Units × Document)) → ((members? ms).isSome ↔
    AllMembers (·.text?.isSome) (fun _ => True) ms ∧
      AllMembers (fun _ => True) (·.number?.isSome) ms)
  | [] => ⟨fun _ => ⟨trivial, trivial⟩, fun _ => rfl⟩
  | (name, d) :: ms => by
    have hcons : (members? ((name, d) :: ms)).isSome ↔
        (name.text?.isSome ∧ d.value?.isSome) ∧ (members? ms).isSome := by
      rw [members?]
      cases name.text? <;> cases d.value? <;> cases members? ms <;> simp
    rw [hcons, isSome_value?_iff d, isSome_members?_iff ms]
    change (_ ∧ d.All _ _ ∧ d.All _ _) ∧ _ ↔
      ((_ ∧ d.All _ _) ∧ _) ∧ (True ∧ d.All _ _) ∧ _
    tauto

end

/-! ## Objects -/

/-- Of several members with one name, the value of the last is the one that is found. -/
theorem member?_of_members? {ms : List (Units × Document)} {read : List (String × Value)}
    (h : members? ms = some read) :
    ∃ v, (object ms).value? = some v ∧ ∀ name, v.member? name = lookup name read.reverse := by
  refine ⟨.object (ordered read), ?_, fun name => lookup_ordered name read⟩
  rw [value?, h]
  rfl

theorem text?_of_member? {m : Units × Document} {read : String × Value}
    (h : member? value? m = some read) : m.1.text? = some read.1 := by
  simp only [member?, Option.bind_eq_bind, Option.bind_eq_some_iff] at h
  obtain ⟨name, hname, v, -, h⟩ := h
  cases h
  exact hname

theorem texts_of_members? {ms : List (Units × Document)} {read : List (String × Value)}
    (h : members? ms = some read) : ms.map (·.1.text?) = (read.map (·.1)).map some := by
  rw [members?_eq_mapM, mapM_eq_some_iff] at h
  induction h with
  | nil => rfl
  | cons hm _ ih => rw [List.map_cons, ih, text?_of_member? hm]; rfl

theorem members?_perm {ms ms' : List (Units × Document)} {read : List (String × Value)}
    (h : ms.Perm ms') (hread : members? ms = some read) :
    ∃ read', members? ms' = some read' ∧ read'.Perm read := by
  rw [members?_eq_mapM, mapM_eq_some_iff] at hread
  obtain ⟨read', hread', hperm⟩ := List.perm_comp_forall₂ h.symm hread
  exact ⟨read', by rw [members?_eq_mapM, mapM_eq_some_iff]; exact hread', hperm⟩

/-- Members with distinct names may be listed in any order. -/
theorem value?_object_perm {ms ms' : List (Units × Document)} (h : ms.Perm ms')
    (hnames : (ms.map (·.1.text?)).Nodup) : (object ms).value? = (object ms').value? := by
  rw [value?, value?]
  cases hread : members? ms with
  | none =>
      cases hread' : members? ms' with
      | none => rfl
      | some read' =>
          obtain ⟨read, hsome, -⟩ := members?_perm h.symm hread'
          rw [hread] at hsome
          cases hsome
  | some read =>
      obtain ⟨read', hread', hperm⟩ := members?_perm h hread
      have hdistinct : (read.map (·.1)).Nodup := by
        rw [texts_of_members? hread] at hnames
        exact hnames.of_map some
      rw [hread', Option.map_some, Option.map_some, ordered_eq_of_perm hperm.symm hdistinct]

end Document

end Json

end GossipDirectory
