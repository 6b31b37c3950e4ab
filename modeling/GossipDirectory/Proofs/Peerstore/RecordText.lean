import GossipDirectory.Peerstore.Reload
import GossipDirectory.Proofs.Json.WrittenText

/-!
# Records read back

A snapshot is written as an array of objects with two members each. Its reader knows more layouts,
but the written one is among them, so it arrives at the records that were written.
-/

namespace GossipDirectory

namespace Snapshot

open Json

/-! ## Written arrays -/

/-- Items that read back one by one read back from the array they are written in. -/
theorem arrayItems_written {α : Type} {item : Reader α} {write : α → Bytes}
    (hitem : IgnoresSpace item) {xs : List α} (hopens : ∀ x ∈ xs, Opens StartsValue (write x))
    (hread : ∀ x ∈ xs, ∀ rest, EndsNumber rest → item (write x ++ rest) = .ok (x, rest))
    (rest : Bytes) :
    arrayItems item (separated (xs.map write) ++ closeBracket :: rest) = .ok (xs, rest) := by
  by_cases hne : xs = []
  · subst hne
    exact arrayItems_empty spaces_nil rest
  · have htexts : ∀ text ∈ xs.map write, Opens StartsValue text := by
      intro text htext
      obtain ⟨x, hx, rfl⟩ := List.mem_map.1 htext
      exact hopens x hx
    have hreads : List.Forall₂ (fun x text => Reads item (some x) text) xs (xs.map write) := by
      rw [List.forall₂_map_right_iff, List.forall₂_same]
      intro x hx after hafter
      refine ⟨[], spaces_nil, ?_⟩
      rw [hread x hx after hafter]
      rfl
    have hitems := arrayItems_texts hitem hne htexts hreads rest
    have hall : xs.mapM (fun x => some x) = some xs :=
      mapM_eq_some_iff.2 (List.forall₂_same.2 fun _ _ => rfl)
    rw [hall] at hitems
    exact eq_ok_of_toOption hitems

theorem opens_stringBytes (s : String) : Opens StartsValue (stringBytes s) :=
  ⟨[], quote, _, spaces_nil, ⟨by decide, by decide⟩, rfl⟩

theorem expectString_stringBytes (s : String) (rest : Bytes) :
    expectString (stringBytes s ++ rest) = .ok (s, rest) :=
  eq_ok_of_toOption <| by
    rw [expectString_stringText (stringText_stringBytes s), text?_ofText]
    rfl

theorem readStrings_written (texts : List String) (rest : Bytes) :
    readStrings (openBracket :: (separated (texts.map stringBytes) ++ closeBracket :: rest)) =
      .ok (texts, rest) := by
  change arrayItems expectString _ = _
  apply arrayItems_written expectString_ignoresSpace
  · exact fun s _ => opens_stringBytes s
  · exact fun s _ rest _ => expectString_stringBytes s rest

/-! ## Records -/

theorem member_written {σ : Type} (step : σ → String → Reader σ) (s : σ) (name : String)
    (after : Bytes) : member string step s (stringBytes name ++ after) = step s name after := by
  obtain ⟨bs, hbs, hquote⟩ := (stringText_stringBytes name).append after
  have hname : string (bs ++ quote :: after) = .ok (name, after) := eq_ok_of_toOption <| by
    rw [string_unitsText hbs, text?_ofText]
    rfl
  rw [hquote, member, skipSpace_cons (by decide)]
  change string (bs ++ quote :: after) >>= _ = _
  rw [hname]
  rfl

theorem field_id (id : String) (rest : Bytes) :
    field {} "ID" (colon :: (stringBytes id ++ rest)) = .ok ({ id := some id }, rest) := by
  change (expectString (stringBytes id ++ rest) >>= fun p => _) = _
  rw [expectString_stringBytes]
  rfl

theorem field_addresses (id : String) (addresses : List String) (rest : Bytes) :
    field { id := some id } "Addrs" (colon :: openBracket ::
        (separated (addresses.map stringBytes) ++ closeBracket :: rest)) =
      .ok ({ id := some id, addresses := some addresses }, rest) := by
  change (readStrings (openBracket :: _) >>= fun p => _) = _
  rw [readStrings_written]
  rfl

theorem recordBytes_append (r : PeerRecord) (rest : Bytes) :
    recordBytes r ++ rest = openBrace :: (stringBytes "ID" ++ colon :: (stringBytes r.id ++
      comma :: (stringBytes "Addrs" ++ colon :: openBracket ::
        (separated (r.addresses.map stringBytes) ++ closeBracket :: closeBrace :: rest)))) := by
  simp [recordBytes, separated, memberBytes]

/-- The members of a written record are read one after the other. -/
theorem objectMembers_record (r : PeerRecord) (rest : Bytes) :
    objectMembers string field {} (stringBytes "ID" ++ colon :: (stringBytes r.id ++
        comma :: (stringBytes "Addrs" ++ colon :: openBracket ::
          (separated (r.addresses.map stringBytes) ++ closeBracket :: closeBrace :: rest)))) =
      .ok ({ id := some r.id, addresses := some r.addresses }, rest) := by
  have hmembers : ∀ fuel, members string field (fuel + 2) {}
      (stringBytes "ID" ++ colon :: (stringBytes r.id ++
        comma :: (stringBytes "Addrs" ++ colon :: openBracket ::
          (separated (r.addresses.map stringBytes) ++ closeBracket :: closeBrace :: rest)))) =
      .ok ({ id := some r.id, addresses := some r.addresses }, rest) := by
    intro fuel
    rw [members_eq, member_written, field_id]
    change members string field (fuel + 1) { id := some r.id } (stringBytes "Addrs" ++ _) = _
    rw [members_eq, member_written, field_addresses]
    rfl
  exact hmembers _

/-- A written record reads back. -/
theorem readRecord_recordBytes (r : PeerRecord) (rest : Bytes) :
    readRecord (recordBytes r ++ rest) = .ok (r, rest) := by
  rw [recordBytes_append]
  change (objectMembers string field {} _ >>= fun p => p.1.record >>= fun r => .ok (r, p.2)) = _
  rw [objectMembers_record]
  rfl

theorem readRecord_ignoresSpace : IgnoresSpace readRecord := by
  intro bytes
  rw [readRecord, readRecord, skipSpace_skipSpace]

/-- A written snapshot reads back. -/
theorem readRecords_toBytes (rs : List PeerRecord) :
    document readRecords (toBytes rs) = .ok rs := by
  have hread : readRecords (toBytes rs) = .ok (rs, [10]) := by
    change arrayItems readRecord (separated (rs.map recordBytes) ++ [closeBracket, 10]) = _
    apply arrayItems_written readRecord_ignoresSpace
    · exact fun r _ => ⟨[], openBrace, _, spaces_nil, ⟨by decide, by decide⟩, rfl⟩
    · exact fun r _ rest _ => readRecord_recordBytes r rest
  rw [document, hread]
  rfl

end Snapshot

end GossipDirectory
