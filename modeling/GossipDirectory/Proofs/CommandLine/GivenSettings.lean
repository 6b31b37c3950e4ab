import GossipDirectory.CommandLine.Scan
import GossipDirectory.Proofs.Collection.Outcome
import GossipDirectory.Shard.Descriptor

/-!
# What a command line of settings gives

A command line that writes each setting as a flag and a separate value is either refused or gives
exactly these settings. A value that looks like a flag is never taken for one: the flag before it
then has no value, and the whole line is refused.

## Implementation notes

A pending value is taken over before the next flag is looked at, so the part of the line that comes
after a value can be scanned as if that value had been taken over already.
-/

namespace GossipDirectory

/-- A flag with the text of its value. -/
abbrev Setting := Flag × String

/-- Settings as arguments. -/
def settingArguments (settings : List Setting) : List String :=
  settings.flatMap fun s => flagArguments s.1 s.2

namespace Flag

theorem shape_word (f : Flag) : Arguments.shape f.word = .long f.name none := by
  cases f with
  | text f => cases f <;> rfl
  | port f => cases f <;> rfl
  | id f => cases f <;> rfl
  | size f => cases f <;> rfl
  | dhtServer => rfl

theorem ofName?_name (f : Flag) : ofName? f.name = some f := by
  cases f with
  | text f => cases f <;> decide
  | port f => cases f <;> decide
  | id f => cases f <;> decide
  | size f => cases f <;> decide
  | dhtServer => decide

theorem name_ne_help (f : Flag) : ¬ (f.name = "help" ∨ f.name = "version") := by
  cases f with
  | text f => cases f <;> decide
  | port f => cases f <;> decide
  | id f => cases f <;> decide
  | size f => cases f <;> decide
  | dhtServer => decide

end Flag

namespace Arguments

variable {a b : Arguments} {pending : Pending} {f : Flag} {value : String} {rest : List String}

theorem scan_word (a : Arguments) (pending : Pending) (f : Flag) (rest : List String) :
    scan a pending (f.word :: rest) =
      a.settle pending >>= fun a => scan a (some (f, none)) rest := by
  rw [scan.eq_def]
  dsimp only
  rw [Flag.shape_word]
  dsimp only
  rw [if_neg f.name_ne_help, Flag.ofName?_name]

theorem settle_missing (a : Arguments) (hf : f ≠ .dhtServer) :
    a.settle (some (f, none)) = .error .invalidValue := by
  cases f with
  | dhtServer => exact absurd rfl hf
  | _ => rfl

/-- Only an argument that looks like no flag is taken for a value that is missing. -/
theorem shape_of_scan_value (hf : f ≠ .dhtServer)
    (h : scan a (some (f, none)) (value :: rest) = .ok b) : shape value = .plain := by
  have hmissing := settle_missing a hf
  rw [scan] at h
  split at h
  case h_1 =>
    split at h
    · rw [hmissing] at h
      cases h
    · cases h
  case h_2 =>
    rw [hmissing] at h
    split at h
    · split at h <;> cases h
    · split at h <;> cases h
  case h_3 =>
    rw [hmissing] at h
    split at h <;> cases h
  case h_4 hshape => exact hshape

theorem scan_value (hf : f ≠ .dhtServer) (h : scan a (some (f, none)) (value :: rest) = .ok b) :
    scan a (some (f, some value)) rest = .ok b := by
  have hshape := shape_of_scan_value hf h
  rw [scan, hshape] at h
  exact h

/-- The rest of a line has no value that belongs to an earlier flag. -/
def StartsWithFlag (rest : List String) : Prop :=
  rest = [] ∨ ∃ (f : Flag) (tail : List String), rest = f.word :: tail

theorem startsWithFlag_settingArguments (settings : List Setting) (h : StartsWithFlag rest) :
    StartsWithFlag (settingArguments settings ++ rest) := by
  cases settings with
  | nil => exact h
  | cons s settings => exact Or.inr ⟨s.1, _, rfl⟩

theorem scan_settled (h : StartsWithFlag rest) (a : Arguments) (pending : Pending) :
    scan a pending rest = a.settle pending >>= fun a => scan a none rest := by
  obtain rfl | ⟨f, tail, rfl⟩ := h
  · simp only [scan]
    cases a.settle pending <;> rfl
  · simp only [scan_word]
    cases a.settle pending <;> rfl

/-- The reading of a number with an optional sign, for one that is written without. -/
theorem signed?_render {bound n : Nat} (h : n < bound) :
    signed? bound (Decimal.render n) = some n := by
  have hread := Decimal.ofChars?_render n
  unfold signed?
  split
  case h_1 digits hr =>
    rw [hr] at hread
    simp [Decimal.ofChars?, Decimal.ofDigits?, Decimal.digit?] at hread
  case h_2 => exact Decimal.parse?_render h

/-! ## The settings of arguments -/

/-- The port that a value writes. -/
def portOf? (value : String) : Option UInt16 :=
  (signed? UInt16.size value.toList).map UInt16.ofNat

/-- The id that a value writes. -/
def idOf? (value : String) : Option UInt32 :=
  (signed? UInt32.size value.toList).map UInt32.ofNat

/-- The size that a value writes. -/
def sizeOf? (value : String) : Option UInt64 :=
  (Decimal.parse? UInt64.size value.toList).map UInt64.ofNat

theorem portOf?_text (n : UInt16) : portOf? (Decimal.text n.toNat) = some n := by
  rw [portOf?, Decimal.text, String.toList_ofList, signed?_render n.toNat_lt]
  simp

theorem idOf?_text (n : UInt32) : idOf? (Decimal.text n.toNat) = some n := by
  rw [idOf?, Decimal.text, String.toList_ofList, signed?_render n.toNat_lt]
  simp

theorem sizeOf?_text (n : UInt64) : sizeOf? (Decimal.text n.toNat) = some n := by
  rw [sizeOf?, Decimal.text, String.toList_ofList, Decimal.parse?_render n.toNat_lt]
  simp

/-- Arguments hold what the values of some settings write, and nothing else. -/
structure Holds (a : Arguments) (settings : List Setting) : Prop where
  texts : ∀ f, Option.Rel (fun s v => some v = some s)
    (Keyed.get? f a.texts) (Keyed.get? (.text f) settings)
  ports : ∀ f, Option.Rel (fun n v => portOf? v = some n)
    (Keyed.get? f a.ports) (Keyed.get? (.port f) settings)
  ids : ∀ f, Option.Rel (fun n v => idOf? v = some n)
    (Keyed.get? f a.ids) (Keyed.get? (.id f) settings)
  sizes : ∀ f, Option.Rel (fun n v => sizeOf? v = some n)
    (Keyed.get? f a.sizes) (Keyed.get? (.size f) settings)
  dhtServer : Option.Rel (fun on v => truth? v = some on)
    a.dhtServer (Keyed.get? .dhtServer settings)

theorem holds_nil : Holds {} [] where
  texts _ := .none
  ports _ := .none
  ids _ := .none
  sizes _ := .none
  dhtServer := .none

variable {settings : List Setting}

theorem eq_none_iff_of_rel {α β : Type} {r : α → β → Prop} {x : Option α} {y : Option β}
    (h : Option.Rel r x y) : x = none ↔ y = none := by
  cases h <;> simp

theorem eq_some_of_rel {α β : Type} {r : α → β → Prop} {x : Option α} {b : β}
    (h : Option.Rel r x (some b)) : ∃ a, x = some a ∧ r a b := by
  cases h with
  | some h => exact ⟨_, rfl, h⟩

namespace Holds

theorem text_eq {f : TextFlag} (h : a.Holds settings)
    (hget : Keyed.get? (.text f) settings = some value) : a.text f = value := by
  obtain ⟨s, hs, hread⟩ := eq_some_of_rel (hget ▸ h.texts f)
  rw [Arguments.text, hs]
  exact (Option.some.inj hread).symm

theorem text_eq_empty {f : TextFlag} (h : a.Holds settings)
    (hget : Keyed.get? (.text f) settings = none) : a.text f = "" := by
  rw [Arguments.text, (eq_none_iff_of_rel (h.texts f)).2 hget]
  rfl

theorem port_eq {f : PortFlag} {n : UInt16} (h : a.Holds settings)
    (hget : Keyed.get? (.port f) settings = some (Decimal.text n.toNat)) : a.port f = n := by
  obtain ⟨m, hm, hread⟩ := eq_some_of_rel (hget ▸ h.ports f)
  rw [portOf?_text] at hread
  rw [Arguments.port, hm]
  exact (Option.some.inj hread).symm

theorem id_eq {f : IdFlag} {n : UInt32} (h : a.Holds settings)
    (hget : Keyed.get? (.id f) settings = some (Decimal.text n.toNat)) : a.id f = n := by
  obtain ⟨m, hm, hread⟩ := eq_some_of_rel (hget ▸ h.ids f)
  rw [idOf?_text] at hread
  rw [Arguments.id, hm]
  exact (Option.some.inj hread).symm

theorem id_eq_zero {f : IdFlag} (h : a.Holds settings)
    (hget : Keyed.get? (.id f) settings = none) : a.id f = 0 := by
  rw [Arguments.id, (eq_none_iff_of_rel (h.ids f)).2 hget]
  rfl

theorem size_eq {f : SizeFlag} {n : UInt64} (h : a.Holds settings)
    (hget : Keyed.get? (.size f) settings = some (Decimal.text n.toNat)) : a.size f = n := by
  obtain ⟨m, hm, hread⟩ := eq_some_of_rel (hget ▸ h.sizes f)
  rw [sizeOf?_text] at hread
  rw [Arguments.size, hm]
  exact (Option.some.inj hread).symm

theorem dhtServer_eq (h : a.Holds settings) :
    a.dhtServer = (Keyed.get? .dhtServer settings).bind truth? := by
  cases hget : Keyed.get? .dhtServer settings with
  | none => exact (eq_none_iff_of_rel h.dhtServer).2 hget
  | some value =>
      obtain ⟨on, hon, hread⟩ := eq_some_of_rel (hget ▸ h.dhtServer)
      rw [hon, Option.bind_some, hread]

end Holds

/-- One kind of flags after a new value of one of them. -/
theorem rel_put {κ α : Type} [DecidableEq κ] {reads : String → Option α} {m : List (κ × α)}
    (tag : κ → Flag) (htag : ∀ f g, tag f = tag g → f = g)
    (h : ∀ g, Option.Rel (fun x v => reads v = some x) (Keyed.get? g m)
      (Keyed.get? (tag g) settings))
    {f : κ} {x : α} (hnew : Keyed.get? f m = none) (hx : reads value = some x) (g : κ) :
    Option.Rel (fun x v => reads v = some x) (Keyed.get? g (Keyed.put f x m))
      (Keyed.get? (tag g) (settings ++ [(tag f, value)])) := by
  by_cases hg : g = f
  · subst hg
    have hnone : Keyed.get? (tag g) settings = none := (eq_none_iff_of_rel (h g)).1 hnew
    rw [Keyed.get?_put_self, Keyed.get?_snoc_self hnone]
    exact .some hx
  · have hne : tag f ≠ tag g := fun he => hg (htag f g he).symm
    rw [Keyed.get?_put_of_ne hg, Keyed.get?_snoc_of_ne hne]
    exact h g

/-- A value that is taken over is a setting of its own. -/
theorem Holds.accept (h : a.Holds settings) (hb : a.accept f value = .ok b) :
    b.Holds (settings ++ [(f, value)]) := by
  have other : ∀ g, f ≠ g → Keyed.get? g (settings ++ [(f, value)]) = Keyed.get? g settings :=
    fun g hg => Keyed.get?_snoc_of_ne hg settings value
  unfold Arguments.accept at hb
  split at hb
  case isTrue => cases hb
  case isFalse hnew =>
    cases f with
    | text f =>
        cases hb
        have hnone : Keyed.get? f a.texts = none := by simpa [gives, Keyed.contains] using hnew
        exact {
          texts := rel_put .text (by simp) h.texts hnone rfl
          ports := fun g => by rw [other _ (by simp)]; exact h.ports g
          ids := fun g => by rw [other _ (by simp)]; exact h.ids g
          sizes := fun g => by rw [other _ (by simp)]; exact h.sizes g
          dhtServer := by rw [other _ (by simp)]; exact h.dhtServer }
    | port f =>
        have hnone : Keyed.get? f a.ports = none := by simpa [gives, Keyed.contains] using hnew
        dsimp only at hb
        split at hb
        case h_2 => cases hb
        case h_1 n hn =>
          cases hb
          have hread : portOf? value = some (.ofNat n) := by rw [portOf?, hn, Option.map_some]
          exact {
            texts := fun g => by rw [other _ (by simp)]; exact h.texts g
            ports := rel_put .port (by simp) h.ports hnone hread
            ids := fun g => by rw [other _ (by simp)]; exact h.ids g
            sizes := fun g => by rw [other _ (by simp)]; exact h.sizes g
            dhtServer := by rw [other _ (by simp)]; exact h.dhtServer }
    | id f =>
        have hnone : Keyed.get? f a.ids = none := by simpa [gives, Keyed.contains] using hnew
        dsimp only at hb
        split at hb
        case h_2 => cases hb
        case h_1 n hn =>
          cases hb
          have hread : idOf? value = some (.ofNat n) := by rw [idOf?, hn, Option.map_some]
          exact {
            texts := fun g => by rw [other _ (by simp)]; exact h.texts g
            ports := fun g => by rw [other _ (by simp)]; exact h.ports g
            ids := rel_put .id (by simp) h.ids hnone hread
            sizes := fun g => by rw [other _ (by simp)]; exact h.sizes g
            dhtServer := by rw [other _ (by simp)]; exact h.dhtServer }
    | size f =>
        have hnone : Keyed.get? f a.sizes = none := by simpa [gives, Keyed.contains] using hnew
        dsimp only at hb
        split at hb
        case h_2 => cases hb
        case h_1 n hn =>
          cases hb
          have hread : sizeOf? value = some (.ofNat n) := by rw [sizeOf?, hn, Option.map_some]
          exact {
            texts := fun g => by rw [other _ (by simp)]; exact h.texts g
            ports := fun g => by rw [other _ (by simp)]; exact h.ports g
            ids := fun g => by rw [other _ (by simp)]; exact h.ids g
            sizes := rel_put .size (by simp) h.sizes hnone hread
            dhtServer := by rw [other _ (by simp)]; exact h.dhtServer }
    | dhtServer =>
        have hold : a.dhtServer = none := by simpa [gives] using hnew
        have hnone : Keyed.get? .dhtServer settings = none :=
          (eq_none_iff_of_rel h.dhtServer).1 hold
        dsimp only at hb
        split at hb
        case h_2 => cases hb
        case h_1 on hon =>
          cases hb
          exact {
            texts := fun g => by rw [other _ (by simp)]; exact h.texts g
            ports := fun g => by rw [other _ (by simp)]; exact h.ports g
            ids := fun g => by rw [other _ (by simp)]; exact h.ids g
            sizes := fun g => by rw [other _ (by simp)]; exact h.sizes g
            dhtServer := by rw [Keyed.get?_snoc_self hnone]; exact .some hon }

/-- A part of a line that writes settings gives exactly these. -/
theorem Holds.scan (ha : a.Holds settings) {more : List Setting}
    (hmore : ∀ s ∈ more, s.1 ≠ .dhtServer) (hrest : StartsWithFlag rest)
    (h : Arguments.scan a none (settingArguments more ++ rest) = .ok b) :
    ∃ a' : Arguments, a'.Holds (settings ++ more) ∧ Arguments.scan a' none rest = .ok b := by
  induction more generalizing a settings with
  | nil => exact ⟨a, by simpa using ha, h⟩
  | cons s more ih =>
      obtain ⟨f, value⟩ := s
      have hf : f ≠ .dhtServer := hmore (f, value) (List.mem_cons_self ..)
      have hstart := startsWithFlag_settingArguments more hrest
      change Arguments.scan a none (f.word :: value :: (settingArguments more ++ rest)) = .ok b at h
      rw [scan_word] at h
      -- The value is pending, and taken over before the flag that comes next.
      have hvalue := scan_value hf h
      rw [scan_settled hstart] at hvalue
      obtain ⟨a', haccept, htail⟩ := bind_eq_ok.1 hvalue
      obtain ⟨a'', hholds, hb⟩ := ih (ha.accept haccept)
        (fun s hs => hmore s (List.mem_cons_of_mem _ hs)) htail
      exact ⟨a'', by simpa using hholds, hb⟩

/-- The server switch may stand alone at the end. -/
theorem Holds.scan_switch (ha : a.Holds settings)
    (h : Arguments.scan a none [Flag.dhtServer.word] = .ok b) :
    b.Holds (settings ++ [(.dhtServer, "true")]) := by
  rw [scan_word] at h
  exact ha.accept h

end Arguments

end GossipDirectory
