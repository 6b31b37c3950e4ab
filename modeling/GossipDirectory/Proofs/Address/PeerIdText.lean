import GossipDirectory.Address.PeerId
import GossipDirectory.Proofs.Address.TaggedDigest
import GossipDirectory.Proofs.Text.Base58

/-!
# Peer ids read back

Reading gives ids with a short key or with a digest of at most 64 bytes, and every such id reads
back from its text.
-/

namespace GossipDirectory

namespace PeerId

/-- An id with a digest of a known kind, neither of them too long. -/
structure WellFormed (p : PeerId) : Prop where
  digest_le : p.digest.length ≤ TaggedDigest.maxDigest
  code_eq : p.code = sha256Code ∨ (p.code = identityCode ∧ p.digest.length ≤ maxInline)

theorem WellFormed.tagged {p : PeerId} (h : p.WellFormed) : p.toTaggedDigest.WellFormed where
  code_lt := by rcases h.code_eq with hc | ⟨hc, -⟩ <;> rw [hc] <;> decide
  digest_le := h.digest_le

theorem ofBytes?_toBytes {p : PeerId} (h : p.WellFormed) : ofBytes? p.toBytes = some p := by
  rw [ofBytes?, TaggedDigest.ofBytes?_toBytes h.tagged]
  exact if_pos h.code_eq

/-- Only well-formed ids are read. -/
theorem wellFormed_of_ofBytes? {bytes : Bytes} {p : PeerId} (h : ofBytes? bytes = some p) :
    p.WellFormed := by
  simp only [ofBytes?, Option.bind_eq_bind, Option.bind_eq_some_iff] at h
  obtain ⟨tagged, htagged, h⟩ := h
  split at h
  · next hcode =>
      cases h
      exact ⟨(TaggedDigest.wellFormed_of_ofBytes? htagged).digest_le, hcode⟩
  · cases h

theorem wellFormed_of_parse? {cs : List Char} {p : PeerId} (h : parse? cs = some p) :
    p.WellFormed := by
  obtain ⟨bytes, -, h⟩ := Option.bind_eq_some_iff.1 h
  exact wellFormed_of_ofBytes? h

/-- A well-formed id reads back from its text. -/
theorem parse?_render {p : PeerId} (h : p.WellFormed) : parse? p.render = some p := by
  rw [parse?, render, Base58.decode?_encode]
  exact ofBytes?_toBytes h

theorem slash_not_mem_render (p : PeerId) : '/' ∉ p.render :=
  fun h => Base58.ne_slash_of_mem_encode h rfl

end PeerId

end GossipDirectory
