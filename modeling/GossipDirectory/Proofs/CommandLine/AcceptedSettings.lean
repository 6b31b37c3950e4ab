import GossipDirectory.Proofs.CommandLine.GivenSettings

/-!
# Which command lines of settings are accepted

A line that writes each setting as a flag and a separate value is accepted as soon as its flags are
distinct, its numbers can be read and none of its values looks like a flag; a single value that
looks like one makes the scan refuse the whole line.
-/

namespace GossipDirectory

/-- A text that is never taken for a separate value: it starts with a dash and goes on. -/
def LooksLikeFlag (t : String) : Prop :=
  t ≠ "-" ∧ t.toList.head? = some '-'

instance (t : String) : Decidable (LooksLikeFlag t) :=
  inferInstanceAs (Decidable (_ ∧ _))

theorem looksLikeFlag_iff {t : String} :
    LooksLikeFlag t ↔ ∃ c cs, t.toList = '-' :: c :: cs := by
  have hdash : t = "-" ↔ t.toList = ['-'] := String.ext_iff
  rw [LooksLikeFlag, ne_eq, hdash]
  cases h : t.toList with
  | nil => simp
  | cons d ds =>
      cases ds with
      | nil => simp
      | cons c cs => simp

theorem not_looksLikeFlag_empty : ¬ LooksLikeFlag "" := by
  decide

theorem shape_eq_plain_iff {t : String} : Arguments.shape t = .plain ↔ ¬ LooksLikeFlag t := by
  rw [looksLikeFlag_iff, Arguments.shape]
  split
  case h_1 h => simp [h]
  case h_2 rest _ h => simp [h]
  case h_3 c cs _ _ h => simp [h]
  case h_4 hescape hlong hshort =>
    simp only [true_iff]
    rintro ⟨c, cs, h⟩
    exact hshort c cs h

/-- The numeral of a number starts with a digit. -/
theorem not_looksLikeFlag_decimalText (n : Nat) : ¬ LooksLikeFlag (Decimal.text n) := by
  rw [looksLikeFlag_iff, Decimal.text, String.toList_ofList]
  rintro ⟨c, cs, h⟩
  have hread := Decimal.ofChars?_render n
  rw [h] at hread
  simp [Decimal.ofChars?, Decimal.ofDigits?, Decimal.digit?] at hread

namespace Flag

/-- The flag can take over a value. -/
def Reads : Flag → String → Prop
  | .text _, _ => True
  | .port _, value => (Arguments.portOf? value).isSome
  | .id _, value => (Arguments.idOf? value).isSome
  | .size _, value => (Arguments.sizeOf? value).isSome
  | .dhtServer, value => (Arguments.truth? value).isSome

end Flag

namespace Arguments

variable {a b : Arguments} {f : Flag} {value : String} {rest : List String}
  {settings : List Setting}

theorem exists_accept (hnew : a.gives f = false) (hreads : f.Reads value) :
    ∃ b, a.accept f value = .ok b := by
  unfold accept
  rw [if_neg (by simp [hnew])]
  cases f with
  | text f => exact ⟨_, rfl⟩
  | port f =>
      rw [Flag.Reads, portOf?, Option.isSome_map, Option.isSome_iff_exists] at hreads
      obtain ⟨n, hn⟩ := hreads
      simp only [hn]
      exact ⟨_, rfl⟩
  | id f =>
      rw [Flag.Reads, idOf?, Option.isSome_map, Option.isSome_iff_exists] at hreads
      obtain ⟨n, hn⟩ := hreads
      simp only [hn]
      exact ⟨_, rfl⟩
  | size f =>
      rw [Flag.Reads, sizeOf?, Option.isSome_map, Option.isSome_iff_exists] at hreads
      obtain ⟨n, hn⟩ := hreads
      simp only [hn]
      exact ⟨_, rfl⟩
  | dhtServer =>
      obtain ⟨on, hon⟩ := Option.isSome_iff_exists.1 hreads
      simp only [hon]
      exact ⟨_, rfl⟩

theorem Holds.gives_eq_false (h : a.Holds settings) (hnew : Keyed.get? f settings = none) :
    a.gives f = false := by
  cases f with
  | text f => simp [gives, Keyed.contains, (eq_none_iff_of_rel (h.texts f)).2 hnew]
  | port f => simp [gives, Keyed.contains, (eq_none_iff_of_rel (h.ports f)).2 hnew]
  | id f => simp [gives, Keyed.contains, (eq_none_iff_of_rel (h.ids f)).2 hnew]
  | size f => simp [gives, Keyed.contains, (eq_none_iff_of_rel (h.sizes f)).2 hnew]
  | dhtServer => simp [gives, (eq_none_iff_of_rel h.dhtServer).2 hnew]

/-- A new and readable setting is taken over. -/
theorem Holds.exists_accept (h : a.Holds settings) (hnew : Keyed.get? f settings = none)
    (hreads : f.Reads value) :
    ∃ b, a.accept f value = .ok b ∧ b.Holds (settings ++ [(f, value)]) := by
  obtain ⟨b, hb⟩ := Arguments.exists_accept (h.gives_eq_false hnew) hreads
  exact ⟨b, hb, h.accept hb⟩

/-- A value that does not look like a flag is read with its flag. -/
theorem scan_setting (a : Arguments) (hvalue : ¬ LooksLikeFlag value)
    (hrest : StartsWithFlag rest) :
    scan a none (f.word :: value :: rest) = a.accept f value >>= fun a => scan a none rest := by
  have hshape := shape_eq_plain_iff.2 hvalue
  calc
    scan a none (f.word :: value :: rest) = scan a (some (f, none)) (value :: rest) := by
      rw [scan_word]
      rfl
    _ = scan a (some (f, some value)) rest := by
      rw [scan, hshape]
    _ = a.accept f value >>= fun a => scan a none rest := scan_settled hrest a _

/-- A part of a line that writes new and readable settings is scanned to its end, unless one of
its values looks like a flag. -/
theorem Holds.exists_scan (ha : a.Holds settings) {more : List Setting}
    (hkeys : (Keyed.keys (settings ++ more)).Nodup)
    (hmore : ∀ s ∈ more, ¬ LooksLikeFlag s.2 ∧ s.1.Reads s.2) (hrest : StartsWithFlag rest) :
    ∃ a' : Arguments, a'.Holds (settings ++ more) ∧
      Arguments.scan a none (settingArguments more ++ rest) = Arguments.scan a' none rest := by
  induction more generalizing a settings with
  | nil => exact ⟨a, by simpa using ha, rfl⟩
  | cons s more ih =>
      obtain ⟨f, value⟩ := s
      obtain ⟨hvalue, hreads⟩ := hmore (f, value) List.mem_cons_self
      have hnew : Keyed.get? f settings = none := by
        rw [← Option.not_isSome_iff_eq_none, Keyed.get?_isSome_iff_mem]
        intro hf
        rw [Keyed.keys, List.map_append, List.nodup_append] at hkeys
        exact hkeys.2.2 f hf f (by simp) rfl
      obtain ⟨b, haccept, hb⟩ := ha.exists_accept hnew hreads
      have hsplit : settings ++ (f, value) :: more = settings ++ [(f, value)] ++ more := by simp
      rw [hsplit] at hkeys
      obtain ⟨a', hholds, hscan⟩ := ih hb hkeys fun s hs => hmore s (List.mem_cons_of_mem _ hs)
      have hstart := startsWithFlag_settingArguments more hrest
      refine ⟨a', by rwa [hsplit], ?_⟩
      calc
        Arguments.scan a none (settingArguments ((f, value) :: more) ++ rest) =
            Arguments.scan a none (f.word :: value :: (settingArguments more ++ rest)) := rfl
        _ = a.accept f value >>= fun a => Arguments.scan a none (settingArguments more ++ rest) :=
          scan_setting a hvalue hstart
        _ = Arguments.scan b none (settingArguments more ++ rest) := by
          rw [haccept]
          rfl
        _ = Arguments.scan a' none rest := hscan

/-- A line that is accepted has no value that looks like a flag. -/
theorem not_looksLikeFlag_of_scan {more : List Setting} (hmore : ∀ s ∈ more, s.1 ≠ .dhtServer)
    (hrest : StartsWithFlag rest) (h : scan a none (settingArguments more ++ rest) = .ok b) :
    ∀ s ∈ more, ¬ LooksLikeFlag s.2 := by
  induction more generalizing a with
  | nil => simp
  | cons s more ih =>
      obtain ⟨f, value⟩ := s
      change scan a none (f.word :: value :: (settingArguments more ++ rest)) = .ok b at h
      rw [scan_word] at h
      have hvalue := shape_eq_plain_iff.1
        (shape_of_scan_value (hmore (f, value) List.mem_cons_self) h)
      have htail : scan a none (f.word :: value :: (settingArguments more ++ rest)) = .ok b := by
        rw [scan_word]
        exact h
      rw [scan_setting a hvalue (startsWithFlag_settingArguments more hrest)] at htail
      obtain ⟨a', -, htail⟩ := bind_eq_ok.1 htail
      intro t ht
      rcases List.mem_cons.1 ht with rfl | ht
      · exact hvalue
      · exact ih (fun s hs => hmore s (List.mem_cons_of_mem _ hs)) htail t ht

end Arguments

end GossipDirectory
