import GossipDirectory.Proofs.Address.MultiaddrText
import GossipDirectory.Proofs.Onion.Dialing

/-!
# Names of onion services

The name of a service spells its public key, a checksum and the version, so it can be read back and
no two services share one, whatever the checksum is worth. With any port but zero it makes an
address; the address leads back to the service exactly if its port may be dialed.
-/

namespace GossipDirectory

/-! ## The length of a digest -/

namespace Sha3

theorem length_round (s : Lanes) (constant : UInt64) : (round s constant).length = 25 := by
  have hrows : (combineRows (moveLanes (mixColumns s))).length = 25 := by simp [combineRows, build]
  unfold round
  split
  case h_1 first rest heq =>
    rw [heq] at hrows
    exact hrows
  case h_2 heq =>
    rw [heq] at hrows
    cases hrows

theorem length_permute (s : Lanes) : (permute s).length = 25 := by
  have hrounds : ∀ constants : List UInt64, constants ≠ [] →
      (constants.foldl round s).length = 25 := by
    intro constants hne
    rw [← List.dropLast_append_getLast hne, List.foldl_append]
    exact length_round _ _
  exact hrounds roundConstants (by decide)

theorem length_absorb (count : Nat) (s : Lanes) (bytes : Bytes) :
    (absorb count s bytes).length = 25 := by
  induction count generalizing s bytes with
  | zero => exact length_permute _
  | succ count ih => exact ih _ _

theorem length_digest (bytes : Bytes) : (digest bytes).length = 32 := by
  have hlanes : ∀ lanes : Lanes, (lanes.flatMap laneBytes).length = lanes.length * 8 := by
    intro lanes
    simp [List.length_flatMap, laneBytes]
  rw [digest, hlanes, List.length_take, length_absorb]
  rfl

end Sha3

namespace OnionService

/-! ## Names -/

/-- What the name of a service encodes if checksums are taken from the given digests. -/
def nameBytesBy (digest : Bytes → Bytes) (publicKey : Bytes) : Bytes :=
  publicKey ++ (digest (checksumPrefix ++ publicKey ++ [version])).take 2 ++ [version]

/-- The name of a service if checksums are taken from the given digests. -/
def idBy (digest : Bytes → Bytes) (publicKey : Bytes) : String :=
  String.ofList (Base32.encode (nameBytesBy digest publicKey))

variable {digest : Bytes → Bytes} {key other : Bytes}

theorem idBy_digest (key : Bytes) : idBy Sha3.digest key = idOf key := rfl

theorem length_nameBytesBy (hdigest : ∀ m, (digest m).length = 32) (hkey : key.length = 32) :
    (nameBytesBy digest key).length = 35 := by
  simp [nameBytesBy, hdigest, hkey]

theorem length_nameBytes (hkey : key.length = 32) : (nameBytes key).length = 35 :=
  length_nameBytesBy Sha3.length_digest hkey

/-- Services of different keys have different names, even if their checksums are the same. -/
theorem idBy_inj (hdigest : ∀ m, (digest m).length = 32) (hkey : key.length = 32)
    (hother : other.length = 32) : idBy digest key = idBy digest other ↔ key = other := by
  constructor
  · intro h
    have htext := congrArg String.toList h
    rw [idBy, idBy, String.toList_ofList, String.toList_ofList] at htext
    have hread := (Base32.decode?_upper 7 (length_nameBytesBy hdigest hkey)).1
    rw [htext, (Base32.decode?_upper 7 (length_nameBytesBy hdigest hother)).1] at hread
    have hbytes := Option.some.inj hread
    simp only [nameBytesBy, List.append_assoc] at hbytes
    exact (List.append_inj hbytes (hother.trans hkey.symm)).1.symm
  · rintro rfl
    rfl

end OnionService

/-! ## Addresses of services -/

namespace OnionEndpoint

variable {hash : Bytes} {port : UInt16}

/-- The address of an endpoint is read from the text of the segment that the name spells. -/
theorem toMultiaddr_eq_ofText (hash : Bytes) (port : UInt16) :
    toMultiaddr { serviceId := String.ofList (Base32.encode hash), port } =
      Multiaddr.ofText (Multiaddr.toText [.onion3 hash port]) := by
  have htext : ("/onion3/" ++ String.ofList (Base32.encode hash) ++ ":" ++
      Decimal.text port.toNat).toList = Multiaddr.render [.onion3 hash port] := by
    simp [Multiaddr.render, Multiaddr.segmentChars, Multiaddr.segmentWords, Multiaddr.onionChars,
      Decimal.text]
  rw [toMultiaddr, Multiaddr.toText, Multiaddr.ofText, Multiaddr.ofText, htext,
    String.toList_ofList]

/-- An endpoint whose name spells 35 bytes has an address, unless its port is zero. -/
theorem toMultiaddr_encode (hhash : hash.length = 35) (hport : port ≠ 0) :
    toMultiaddr { serviceId := String.ofList (Base32.encode hash), port } =
      .ok [.onion3 hash port] := by
  have hsegment : ∀ s ∈ ([.onion3 hash port] : Multiaddr), s.Representable := by
    intro s hs
    rw [List.mem_singleton] at hs
    subst hs
    exact ⟨hhash, hport⟩
  rw [toMultiaddr_eq_ofText, Multiaddr.ofText, Multiaddr.toText, String.toList_ofList,
    Multiaddr.parse_render hsegment]
  rfl

/-- The address of an onion segment leads to its service if its port is in range; otherwise the
port is what is wrong with it. -/
theorem ofMultiaddr_onion (hash : Bytes) (port : UInt16) :
    ofMultiaddr [.onion3 hash port] =
      if 1024 ≤ port.toNat ∧ port.toNat < 65535 then
        .ok { serviceId := String.ofList (Base32.encode hash), port }
      else .error (.invalidAddress (.onionPort port.toNat)) :=
  rfl

end OnionEndpoint

namespace OnionService

open OnionEndpoint

/-- The name of a service has 56 digits that read to its key, two bytes of a digest and the version.
Keys are told apart by their names whatever the digests are, as long as all have the length of the
ones in use. With every port but zero the name makes an address, which leads back to the service and
the port exactly if the port is in range, and is refused for its port otherwise. -/
theorem idOf_identifies (key : Bytes) (hkey : key.length = 32) :
    ((idOf key).length = 56 ∧ (∀ c ∈ (idOf key).toList, Base32.IsDigit c) ∧
      Base32.decode? ((idOf key).toList.map Char.toUpper) =
        some (key ++ (Sha3.digest (checksumPrefix ++ key ++ [version])).take 2 ++ [3])) ∧
    (idOf = idBy Sha3.digest ∧ (∀ m, (Sha3.digest m).length = 32) ∧
      ∀ digest : Bytes → Bytes, (∀ m, (digest m).length = 32) → ∀ other, other.length = 32 →
        (idBy digest key = idBy digest other ↔ key = other)) ∧
    ∀ port : UInt16, port ≠ 0 →
      ∃ address, toMultiaddr { serviceId := idOf key, port } = .ok address ∧
        (ofMultiaddr address = .ok { serviceId := idOf key, port } ↔
          1024 ≤ port.toNat ∧ port.toNat < 65535) ∧
        (¬(1024 ≤ port.toNat ∧ port.toNat < 65535) →
          ofMultiaddr address = .error (.invalidAddress (.onionPort port.toNat))) := by
  have hlength : (nameBytes key).length = 35 :=
    length_nameBytesBy Sha3.length_digest hkey
  have hspells : Base32.Spells (idOf key).toList (nameBytes key) :=
    (Base32.spells_iff 7 hlength).2 (String.toList_ofList)
  refine ⟨⟨?width, hspells.digits, hspells.reads⟩,
    ⟨(funext idBy_digest).symm, Sha3.length_digest, ?apart⟩, ?address⟩
  case width =>
    have hwidth := hspells.length_eq
    rw [hlength, String.length_toList] at hwidth
    omega
  case apart => exact fun digest hdigest other hother => idBy_inj hdigest hkey hother
  case address =>
    intro port hport
    refine ⟨[.onion3 (nameBytes key) port], toMultiaddr_encode hlength hport, ?_, ?_⟩
    · rw [ofMultiaddr_onion]
      constructor
      · intro hback
        by_contra hrange
        rw [if_neg hrange] at hback
        cases hback
      · exact fun hrange => if_pos hrange
    · exact fun hrange => (ofMultiaddr_onion _ _).trans (if_neg hrange)

/-- The services of two keys that differ in the last byte only are told apart, and one of them is
found at the last port in range but not at the one after it. -/
theorem adjacent_identified :
    (List.replicate 32 (7 : UInt8)).length = 32 ∧
      idOf (List.replicate 32 7) ≠ idOf (List.replicate 31 7 ++ [8]) ∧
      (∃ address, toMultiaddr { serviceId := idOf (List.replicate 32 7), port := 65534 } =
          .ok address ∧
        ofMultiaddr address = .ok { serviceId := idOf (List.replicate 32 7), port := 65534 }) ∧
      ∃ address, toMultiaddr { serviceId := idOf (List.replicate 32 7), port := 65535 } =
          .ok address ∧
        ofMultiaddr address = .error (.invalidAddress (.onionPort 65535)) := by
  obtain ⟨-, ⟨hby, hdigest, hapart⟩, hports⟩ := idOf_identifies (List.replicate 32 7) (by decide)
  obtain ⟨inside, hinside, hback, -⟩ := hports 65534 (by decide)
  obtain ⟨outside, houtside, -, hrefused⟩ := hports 65535 (by decide)
  refine ⟨by decide, ?_, ⟨inside, hinside, hback.2 (by decide)⟩,
    ⟨outside, houtside, hrefused (by decide)⟩⟩
  rw [hby]
  intro hsame
  have hkeys := (hapart Sha3.digest hdigest (List.replicate 31 7 ++ [8]) (by decide)).1 hsame
  exact absurd hkeys (by decide)

end OnionService

end GossipDirectory
