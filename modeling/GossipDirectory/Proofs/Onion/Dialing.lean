import GossipDirectory.Onion.Transport
import GossipDirectory.Proofs.Text.Base32
import Mathlib.Tactic.Common

/-!
# Addresses that are dialed

An address can be dialed if it is one onion segment with a port in range, and at most a peer id
after it. Asking whether an address can be dialed, dialing it and listening on it go by this one
rule. A circuit is asked for by the name that spells the bytes of the segment.
-/

namespace GossipDirectory

/-- The address is that of an onion service at a port in range; a peer id may come after it. -/
def Multiaddr.Dialable (address : Multiaddr) (hash : Bytes) (port : UInt16) : Prop :=
  (address = [.onion3 hash port] ∨ ∃ peer, address = [.onion3 hash port, .p2p peer]) ∧
    1024 ≤ port.toNat ∧ port.toNat < 65535

variable {address : Multiaddr} {hash : Bytes} {port : UInt16}

/-- One peer id is taken off the end, so another one in front of it stays. -/
theorem Multiaddr.stripPeer_eq_onion_iff :
    address.stripPeer = [.onion3 hash port] ↔
      address = [.onion3 hash port] ∨ ∃ peer, address = [.onion3 hash port, .p2p peer] := by
  constructor
  · intro h
    unfold stripPeer at h
    split at h
    case h_1 peer hlast =>
      obtain ⟨front, hfront⟩ := List.getLast?_eq_some_iff.1 hlast
      rw [hfront, List.dropLast_concat] at h
      rw [h] at hfront
      exact .inr ⟨peer, hfront⟩
    case h_2 => exact .inl h
  · rintro (rfl | ⟨peer, rfl⟩)
    · rfl
    · rfl

namespace OnionEndpoint

/-- An address has an endpoint exactly if it can be dialed. -/
theorem ofMultiaddr_eq_ok_iff {endpoint : OnionEndpoint} :
    ofMultiaddr address = .ok endpoint ↔
      ∃ hash, address.Dialable hash endpoint.port ∧
        endpoint.serviceId = String.ofList (Base32.encode hash) := by
  obtain ⟨serviceId, port⟩ := endpoint
  unfold Multiaddr.Dialable
  simp only [← Multiaddr.stripPeer_eq_onion_iff]
  constructor
  · intro h
    unfold ofMultiaddr at h
    split at h
    case h_1 hash number hstrip =>
      split at h
      case isTrue hrange =>
        cases h
        exact ⟨hash, ⟨hstrip, UInt16.le_iff_toNat_le.1 hrange.1, UInt16.lt_iff_toNat_lt.1 hrange.2⟩,
          rfl⟩
      case isFalse => cases h
    case h_2 => cases h
  · rintro ⟨hash, ⟨hstrip, hlow, hhigh⟩, rfl⟩
    have hrange : minPort ≤ port ∧ port < maxPort :=
      ⟨UInt16.le_iff_toNat_le.2 hlow, UInt16.lt_iff_toNat_lt.2 hhigh⟩
    simp only [ofMultiaddr, hstrip, if_pos hrange]

theorem ofMultiaddr_of_dialable (h : address.Dialable hash port) :
    ofMultiaddr address = .ok { serviceId := String.ofList (Base32.encode hash), port } :=
  ofMultiaddr_eq_ok_iff.2 ⟨hash, h, rfl⟩

theorem ofMultiaddr_of_not_dialable (h : ¬∃ hash port, address.Dialable hash port) :
    ∃ failure, ofMultiaddr address = .error failure := by
  cases hread : ofMultiaddr address with
  | error failure => exact ⟨failure, rfl⟩
  | ok endpoint =>
      obtain ⟨hash, hdialable, -⟩ := ofMultiaddr_eq_ok_iff.1 hread
      exact absurd ⟨hash, _, hdialable⟩ h

end OnionEndpoint

theorem isOnionAddress_iff :
    isOnionAddress address = true ↔ ∃ hash port, address.Dialable hash port := by
  by_cases h : ∃ hash port, address.Dialable hash port
  · obtain ⟨hash, port, hdialable⟩ := h
    rw [isOnionAddress, OnionEndpoint.ofMultiaddr_of_dialable hdialable]
    exact iff_of_true rfl ⟨hash, port, hdialable⟩
  · obtain ⟨failure, hread⟩ := OnionEndpoint.ofMultiaddr_of_not_dialable h
    rw [isOnionAddress, hread]
    exact iff_of_false Bool.false_ne_true h

namespace OnionTransport

/-- An address can be dialed exactly if it is one onion segment with a port in range, perhaps with a
peer id after it. Dialing it then asks for one circuit, to its port at the one host whose 56
characters spell the 35 bytes of the segment. Any other address is refused as it is, no circuit is
asked for, and it cannot be listened on either. -/
theorem dialed_iff_dialable (address : Multiaddr) :
    (isOnionAddress address = true ↔ ∃ hash port, address.Dialable hash port) ∧
    (∀ hash port, address.Dialable hash port → hash.length = 35 →
      ∃ text, text.length = 56 ∧ (∀ other, Base32.Spells other hash ↔ other = text) ∧
        dial address = (.ok (), [{ host := String.ofList text ++ ".onion", port }])) ∧
    ((¬∃ hash port, address.Dialable hash port) →
      dial address = (.error (.unsupported address), []) ∧
        ∀ (t : OnionTransport) id,
          t.listenOn id address = (.error (.unsupported address), t)) := by
  refine ⟨isOnionAddress_iff, fun hash port hdialable hlength => ?_, fun hnot => ?_⟩
  · obtain ⟨-, hwidth, -⟩ := Base32.decode?_upper 7 hlength
    refine ⟨Base32.encode hash, hwidth, fun _ => Base32.spells_iff 7 hlength, ?_⟩
    unfold dial
    rw [OnionEndpoint.ofMultiaddr_of_dialable hdialable]
    rfl
  · obtain ⟨failure, hread⟩ := OnionEndpoint.ofMultiaddr_of_not_dialable hnot
    constructor
    · unfold dial
      rw [hread]
    · intro t id
      unfold listenOn
      rw [hread]

/-- The address of a service with a peer id after it. -/
def named : Multiaddr :=
  [.onion3 (List.replicate 35 0) 65534, .p2p { code := PeerId.sha256Code, digest := [1] }]

/-- The service is dialed by its name. With a second peer id it can neither be dialed nor listened
on. -/
theorem named_dialed :
    named.Dialable (List.replicate 35 0) 65534 ∧ (List.replicate 35 (0 : UInt8)).length = 35 ∧
      dial named = (.ok (),
        [{ host := String.ofList (List.replicate 56 'a') ++ ".onion", port := 65534 }]) ∧
      (let twice := named ++ [.p2p { code := PeerId.sha256Code, digest := [2] }]
      (¬∃ hash port, twice.Dialable hash port) ∧
        dial twice = (.error (.unsupported twice), []) ∧
        listenOn { service := none } 1 twice =
          (.error (.unsupported twice), { service := none })) := by
  have hnamed : named.Dialable (List.replicate 35 0) 65534 := ⟨.inr ⟨_, rfl⟩, by decide, by decide⟩
  have hspells : Base32.Spells (List.replicate 56 'a') (List.replicate 35 0) :=
    (Base32.spells_iff 7 rfl).2 (by decide +kernel)
  obtain ⟨-, hdials, -⟩ := dialed_iff_dialable named
  obtain ⟨text, -, hunique, hdial⟩ := hdials _ _ hnamed rfl
  rw [← (hunique _).1 hspells] at hdial
  have hnot : ¬∃ hash port, (named ++ [.p2p { code := PeerId.sha256Code, digest := [2] }] :
      Multiaddr).Dialable hash port := by
    rintro ⟨hash, port, heq | ⟨peer, heq⟩, -⟩
    · cases heq
    · cases heq
  obtain ⟨-, -, hrefuses⟩ := dialed_iff_dialable _
  exact ⟨hnamed, rfl, hdial, hnot, (hrefuses hnot).1, (hrefuses hnot).2 _ _⟩

end OnionTransport

end GossipDirectory
