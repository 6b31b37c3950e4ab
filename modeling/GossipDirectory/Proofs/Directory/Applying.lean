import GossipDirectory.Proofs.Directory.Duplicates
import GossipDirectory.Proofs.Envelope.Mutations

/-!
# Envelopes applied to a directory

An envelope outside the contexts of mutations is passed over. In one of the two contexts it is
accepted exactly if its payload lists an entry, and does what adding or removing this entry does.
Any other payload is refused before the directory is changed, so what an envelope brings is done as
a whole or not at all.
-/

namespace GossipDirectory

namespace Directory

variable {registry : Registry} {d d' : Directory} {m : Message} {now : Millis}

theorem apply_of_none (h : registry.decode m = none) :
    d.apply registry m now = (.ok false, d) := by
  unfold apply
  rw [h]

theorem apply_of_error {failure : Failure} (h : registry.decode m = some (.error failure)) :
    d.apply registry m now = (.error failure, d) := by
  unfold apply
  rw [h]

theorem apply_of_ok {mutation : Mutation} (h : registry.decode m = some (.ok mutation))
    (hd : d.mutate mutation now = .ok d') : d.apply registry m now = (.ok true, d') := by
  unfold apply
  rw [h]
  simp only [hd]

/-- No mutation is refused, because every mode lets an entry live long enough. -/
theorem exists_mutate (d : Directory) (mutation : Mutation) (now : Millis) :
    ∃ d', d.mutate mutation now = .ok d' := by
  cases mutation with
  | add e => exact (add_succeeds_iff _ _ _ _ _).2 (minimumLife_le_timeToLive e.mode)
  | remove e => exact ⟨_, rfl⟩

/-! ## The contexts of mutations -/

/-- An envelope has one of the two contexts of mutations. -/
def Concerns (m : Message) : Prop :=
  m.context = addContext ∨ m.context = removeContext

instance (m : Message) : Decidable (Concerns m) :=
  inferInstanceAs (Decidable (_ ∨ _))

variable {e : Entry}

theorem apply_unconcerned (h : ¬Concerns m) (d : Directory) (now : Millis) :
    d.apply .standard m now = (.ok false, d) :=
  apply_of_none (Registry.decode_standard_eq_none_iff.2 (not_or.1 h))

theorem apply_added (hcontext : m.context = addContext) (h : Entry.Listed m.payload e)
    (d : Directory) (now : Millis) :
    ∃ d', d.add e.key e.value (timeToLive e.mode) now = .ok d' ∧
      d.apply .standard m now = (.ok true, d') := by
  obtain ⟨d', hd⟩ := exists_mutate d (.add e) now
  exact ⟨d', hd,
    apply_of_ok ((@Registry.decode_standard_eq_ok_iff m (.add e)).2 ⟨hcontext, h⟩) hd⟩

theorem apply_removed (hcontext : m.context = removeContext) (h : Entry.Listed m.payload e)
    (d : Directory) (now : Millis) :
    d.apply .standard m now = (.ok true, d.remove e.key e.value) :=
  apply_of_ok ((@Registry.decode_standard_eq_ok_iff m (.remove e)).2 ⟨hcontext, h⟩) rfl

/-- A payload that lists no entry is refused, and the directory is left alone. -/
theorem apply_unlisted (hcontext : Concerns m) (h : ¬∃ e, Entry.Listed m.payload e)
    (d : Directory) (now : Millis) :
    ∃ cause, d.apply .standard m now = (.error (.serialization cause), d) := by
  cases hdecode : Registry.standard.decode m with
  | none => exact absurd hcontext (not_or.2 (Registry.decode_standard_eq_none_iff.1 hdecode))
  | some decoded =>
      cases decoded with
      | error failure =>
          obtain ⟨cause, rfl⟩ := Registry.exists_cause_of_decode hdecode
          exact ⟨cause, apply_of_error hdecode⟩
      | ok mutation => exact absurd ⟨_, (Registry.decode_standard_eq_ok_iff.1 hdecode).2⟩ h

/-- An envelope outside the contexts of mutations is passed over. In these contexts it is accepted
exactly if its payload lists an entry; then the entry is added for the life time of its mode, or
removed. Otherwise it is refused for its payload, and the directory is as it was. That the directory
would not take an entry never happens. -/
theorem applied_iff_listed (d : Directory) (m : Message) (now : Millis) :
    (¬Concerns m → d.apply .standard m now = (.ok false, d)) ∧
    (Concerns m →
      ((d.apply .standard m now).1 = .ok true ↔ ∃ e, Entry.Listed m.payload e) ∧
      ((¬∃ e, Entry.Listed m.payload e) →
        ∃ cause, d.apply .standard m now = (.error (.serialization cause), d))) ∧
    (∀ e, Entry.Listed m.payload e →
      (m.context = addContext → ∃ d', d.add e.key e.value (timeToLive e.mode) now = .ok d' ∧
        d.apply .standard m now = (.ok true, d')) ∧
      (m.context = removeContext →
        d.apply .standard m now = (.ok true, d.remove e.key e.value))) ∧
    ∀ minimum, (d.apply .standard m now).1 ≠ .error (.directory minimum) := by
  have haccepted (hcontext : Concerns m) (hlisted : ∃ e, Entry.Listed m.payload e) :
      (d.apply .standard m now).1 = .ok true := by
    obtain ⟨e, he⟩ := hlisted
    rcases hcontext with hadd | hremove
    · obtain ⟨d', -, happly⟩ := apply_added hadd he d now
      rw [happly]
    · rw [apply_removed hremove he]
  refine ⟨fun hcontext => apply_unconcerned hcontext d now, fun hcontext => ⟨⟨?_, ?_⟩, ?_⟩,
    fun e he => ⟨fun hadd => apply_added hadd he d now, fun hremove => ?_⟩, fun minimum => ?_⟩
  · intro hok
    by_contra hunlisted
    obtain ⟨cause, happly⟩ := apply_unlisted hcontext hunlisted d now
    rw [happly] at hok
    cases hok
  · exact haccepted hcontext
  · exact fun hunlisted => apply_unlisted hcontext hunlisted d now
  · exact apply_removed hremove he d now
  · by_cases hcontext : Concerns m
    · by_cases hlisted : ∃ e, Entry.Listed m.payload e
      · rw [haccepted hcontext hlisted]
        exact nofun
      · obtain ⟨cause, happly⟩ := apply_unlisted hcontext hlisted d now
        rw [happly]
        exact nofun
    · rw [apply_unconcerned hcontext]
      exact nofun

/-- A directory with a lapsed value and a living one. -/
def halfLapsed : Directory :=
  { slots := [("k", { values := ["a"], expires := 5 }), ("l", { values := ["b"], expires := 50 })]
    added := 2 }

/-- An object with a member that does not count, and its mode before its value. -/
def annotated : Json.Value :=
  .object [("key", .string "k"), ("mode", .string "long"), ("note", .null), ("value", .string "v")]

/-- An entry whose value is no string. -/
def misshapen : Json.Value :=
  .object [("key", .string "k"), ("value", .bool true)]

theorem listed_annotated : Entry.Listed annotated ⟨"k", "v", "long"⟩ :=
  .object (some "long") rfl rfl rfl

theorem not_listed_misshapen : ¬∃ e, Entry.Listed misshapen e := by
  rintro ⟨e, h⟩
  have hread := Entry.ofPayload_eq_ok_iff.2 h
  cases hread

/-- Of these four envelopes two are accepted, one in each spelling; one is refused for its payload
and one is passed over. -/
theorem annotated_applied :
    halfLapsed.apply .standard ⟨addContext, annotated⟩ 10 =
        (.ok true, { slots := [("k", ⟨["v"], 3600010⟩), ("l", ⟨["b"], 50⟩)], added := 3 }) ∧
      halfLapsed.apply .standard ⟨removeContext, .array [.string "l", .string "b"]⟩ 10 =
        (.ok true, { slots := [("k", ⟨["a"], 5⟩)], added := 2 }) ∧
      (∃ cause, halfLapsed.apply .standard ⟨removeContext, misshapen⟩ 10 =
        (.error (.serialization cause), halfLapsed)) ∧
      halfLapsed.apply .standard ⟨"chat.say", annotated⟩ 10 = (.ok false, halfLapsed) := by
  have hpair : Entry.Listed (.array [.string "l", .string "b"]) ⟨"l", "b", ""⟩ :=
    .array none
  obtain ⟨d', hadded, happly⟩ :=
    ((applied_iff_listed halfLapsed ⟨addContext, annotated⟩ 10).2.2.1 _ listed_annotated).1 rfl
  refine ⟨?_, ?_, ?_, ?_⟩
  · rw [happly, ← Except.ok.inj hadded]
    rfl
  · exact ((applied_iff_listed halfLapsed ⟨removeContext, _⟩ 10).2.2.1 _ hpair).2 rfl
  · exact ((applied_iff_listed halfLapsed _ 10).2.1 (by decide)).2 not_listed_misshapen
  · exact (applied_iff_listed halfLapsed _ 10).1 (by decide)

end Directory

end GossipDirectory
