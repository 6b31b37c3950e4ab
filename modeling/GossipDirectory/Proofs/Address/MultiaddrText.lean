import GossipDirectory.Address.Text
import GossipDirectory.Proofs.Address.IpText
import GossipDirectory.Proofs.Address.PeerIdText
import GossipDirectory.Proofs.Text.Base32
import GossipDirectory.Proofs.Text.BitAlphabet
import GossipDirectory.Proofs.Text.Percent

/-!
# Addresses read back

Reading gives representable segments only: free text without a slash, peer ids that are digests of a
known kind, onion addresses of full length with a port, garlic addresses of a length that is in use
and well-formed digests of certificates. An address of such segments reads back from its text.

## Implementation notes

No word of a written address holds a slash, so splitting at slashes gives the words again. One
segment is then read from the front of its words, whatever words follow.
-/

namespace GossipDirectory

/-- A segment that some text names. -/
def Segment.Representable : Segment → Prop
  | .text _ value => '/' ∉ value.toList
  | .p2p peer => peer.WellFormed
  | .onion hash number => hash.length = 10 ∧ number ≠ 0
  | .onion3 hash number => hash.length = 35 ∧ number ≠ 0
  | .garlic protocol address => protocol.Fits (protocol.alphabet.encode address).length
  | .certhash hash => hash.WellFormed
  | _ => True

namespace Multiaddr

/-! ## Values -/

theorem numberValue_render {bound n : Nat} (h : n < bound) :
    numberValue bound (Decimal.render n) = .ok n := by
  rw [numberValue, Decimal.parse?_render h]

theorem lt_of_numberValue {bound n : Nat} {cs : List Char} (h : numberValue bound cs = .ok n) :
    n < bound := by
  rw [numberValue] at h
  split at h
  · next m hread =>
      cases h
      simp only [Decimal.parse?, Option.filter_eq_some_iff] at hread
      exact of_decide_eq_true hread.2
  · cases h

theorem required_eq_ok {α : Type} {defect : ValueDefect} {value : Option α} {x : α} :
    required defect value = .ok x ↔ value = some x := by
  cases value with
  | none => exact ⟨nofun, nofun⟩
  | some y => simp [required]

/-! ## Onion addresses -/

theorem flatMap_upper {cs : List Char} {f : Char → Char} (h : ∀ c ∈ cs, upper c = [f c]) :
    cs.flatMap upper = cs.map f := by
  induction cs with
  | nil => rfl
  | cons c cs ih =>
      rw [List.flatMap_cons, h c List.mem_cons_self, ih fun d hd => h d (List.mem_cons_of_mem c hd)]
      rfl

theorem upper_digitChar {d : Nat} (h : d < 32) :
    upper (Base32.digitChar d) = [(Base32.digitChar d).toUpper] ∧
      (Base32.digitChar d).toUpper ≠ ':' ∧ (Base32.digitChar d).toUpper.toNat < 128 ∧
      Base32.digitChar d ≠ '/' := by
  have all : ∀ d < 32, upper (Base32.digitChar d) = [(Base32.digitChar d).toUpper] ∧
      (Base32.digitChar d).toUpper ≠ ':' ∧ (Base32.digitChar d).toUpper.toNat < 128 ∧
      Base32.digitChar d ≠ '/' := by decide
  exact all d h

/-- Digits have no upper case. -/
theorem upper_of_isDigit {c : Char} (h : c.isDigit = true) : upper c = [c] := by
  have all : ∀ n < 128, (Char.ofNat n).isDigit = true →
      upper (Char.ofNat n) = [Char.ofNat n] := by decide
  have hlt : c.toNat < 128 := by
    rw [Char.isDigit, Bool.and_eq_true, decide_eq_true_eq, decide_eq_true_eq] at h
    have hle : c.val.toNat ≤ 57 := UInt32.le_iff_toNat_le.1 h.2
    exact Nat.lt_of_le_of_lt hle (by decide)
  have hc := all c.toNat hlt
  rw [Char.ofNat_toNat] at hc
  exact hc h

/-- An onion address is read from two parts: a host of the right width and a port. -/
theorem onionValue_eq_ok_iff {size width : Nat} {cs : List Char} {hash : Bytes} {port : UInt16} :
    onionValue size width cs = .ok (hash, port) ↔
      ∃ host digits bytes n, splitAt ':' (cs.flatMap upper) = [host, digits] ∧
        (String.ofList host).utf8ByteSize = width ∧ numberValue UInt16.size digits = .ok n ∧
        n ≠ 0 ∧ Base32.decode? host = some bytes ∧
        hash = bytes ++ List.replicate (size - bytes.length) 0 ∧ port = UInt16.ofNat n := by
  constructor
  · intro h
    rw [onionValue] at h
    split at h
    · next host rest hsplit =>
        by_cases hwidth : (String.ofList host).utf8ByteSize ≠ width
        · rw [if_pos hwidth] at h
          cases h
        rw [if_neg hwidth] at h
        cases rest with
        | nil => cases h
        | cons digits more =>
            obtain ⟨n, hn, h⟩ := bind_eq_ok.1 h
            by_cases hport : n = 0 ∨ ¬ more.isEmpty
            · rw [if_pos hport] at h
              cases h
            rw [if_neg hport] at h
            obtain ⟨hnonzero, hmore⟩ := not_or.1 hport
            cases hbytes : Base32.decode? host with
            | none =>
                rw [hbytes] at h
                cases h
            | some bytes =>
                rw [hbytes] at h
                cases h
                rw [List.isEmpty_iff.1 (Decidable.not_not.1 hmore)] at hsplit
                exact ⟨host, digits, bytes, n, hsplit, Decidable.not_not.1 hwidth, hn, hnonzero,
                  hbytes, rfl, rfl⟩
    · cases h
  · rintro ⟨host, digits, bytes, n, hsplit, hwidth, hn, hnonzero, hbytes, rfl, rfl⟩
    rw [onionValue, hsplit]
    simp [hwidth, hn, hnonzero, hbytes, bind, Except.bind]

theorem upper_of_mem_encode {k : Nat} {hash : Bytes} (hlength : hash.length = k * 5) {c : Char}
    (hc : c ∈ Base32.encode hash) :
    upper c = [c.toUpper] ∧ c.toUpper ≠ ':' ∧ c.toUpper.toNat < 128 ∧ c ≠ '/' := by
  obtain ⟨d, hd, rfl⟩ := (Base32.decode?_upper k hlength).2.2 c hc
  exact upper_digitChar hd

/-- The parts of an onion address, whatever its port. -/
theorem splitAt_onionChars {k : Nat} {hash : Bytes} (hlength : hash.length = k * 5)
    (port : UInt16) :
    splitAt ':' ((onionChars hash port).flatMap upper) =
      [(Base32.encode hash).map Char.toUpper, Decimal.render port.toNat] := by
  have hupper : (onionChars hash port).flatMap upper =
      [':'].intercalate [(Base32.encode hash).map Char.toUpper, Decimal.render port.toNat] := by
    rw [onionChars, List.flatMap_append, List.flatMap_cons,
      flatMap_upper fun c hc => (upper_of_mem_encode hlength hc).1,
      flatMap_upper (f := id) fun c hc => upper_of_isDigit (Decimal.isDigit_of_mem_render hc)]
    simp [upper]
  rw [hupper]
  apply splitAt_intercalate _ (List.cons_ne_nil _ _)
  intro p hp
  simp only [List.mem_cons, List.not_mem_nil, or_false] at hp
  rcases hp with rfl | rfl
  · intro hcolon
    obtain ⟨c, hc, heq⟩ := List.mem_map.1 hcolon
    exact (upper_of_mem_encode hlength hc).2.1 heq
  · exact Decimal.not_mem_render (by decide) _

/-- An onion address of whole groups of five bytes reads back. -/
theorem onionValue_onionChars (k : Nat) {hash : Bytes} {port : UInt16}
    (hlength : hash.length = k * 5) (hport : port ≠ 0) :
    onionValue (k * 5) (k * 8) (onionChars hash port) = .ok (hash, port) := by
  obtain ⟨hread, hwidth, -⟩ := Base32.decode?_upper k hlength
  apply onionValue_eq_ok_iff.2
  refine ⟨(Base32.encode hash).map Char.toUpper, Decimal.render port.toNat, hash, port.toNat,
    splitAt_onionChars hlength port, ?ascii, numberValue_render port.toNat_lt, ?nonzero, hread,
    ?unpadded, ?number⟩
  case ascii =>
    rw [Utf8.utf8ByteSize_eq_length, List.length_map, hwidth]
    intro c hc
    obtain ⟨b, hb, rfl⟩ := List.mem_map.1 hc
    exact (upper_of_mem_encode hlength hb).2.2.1
  case nonzero => exact fun h => hport (UInt16.toNat_inj.1 h)
  case unpadded => rw [hlength, Nat.sub_self, List.replicate_zero, List.append_nil]
  case number => exact UInt16.ofNat_toNat.symm

theorem slash_not_mem_onionChars {k : Nat} {hash : Bytes} (hlength : hash.length = k * 5)
    (port : UInt16) : '/' ∉ onionChars hash port := by
  intro hslash
  rcases List.mem_append.1 hslash with hslash | hslash
  · exact (upper_of_mem_encode hlength hslash).2.2.2 rfl
  · rcases List.mem_cons.1 hslash with heq | hslash
    · exact absurd heq (by decide)
    · exact Decimal.not_mem_render (by decide) _ hslash

/-- What is read as an onion address has full length and a port. -/
theorem of_onionValue {size width : Nat} (hroom : width * 5 ≤ size * 8) {cs : List Char}
    {hash : Bytes} {port : UInt16} (h : onionValue size width cs = .ok (hash, port)) :
    hash.length = size ∧ port ≠ 0 := by
  obtain ⟨host, digits, bytes, n, -, hwidth, hn, hnonzero, hbytes, rfl, rfl⟩ :=
    onionValue_eq_ok_iff.1 h
  constructor
  · have hchars := Utf8.length_le_utf8ByteSize host
    have hlength := Base32.length_decode?_le hbytes
    rw [List.length_append, List.length_replicate]
    omega
  · intro hzero
    have hnumber : n % UInt16.size = 0 := by
      rw [← UInt16.toNat_ofNat', hzero]
      rfl
    rw [Nat.mod_eq_of_lt (lt_of_numberValue hn)] at hnumber
    exact hnonzero hnumber

/-! ## Garlic addresses -/

/-- The digits that are written are read as themselves. -/
theorem garlicDigit_of_mem {protocol : GarlicProtocol} {c : Char}
    (h : c ∈ protocol.alphabet.digits) : garlicDigit protocol c = c ∧ c ≠ '/' := by
  have hall : protocol.alphabet.digits.all fun c => garlicDigit protocol c = c ∧ c ≠ '/' := by
    cases protocol <;> decide +kernel
  exact of_decide_eq_true (List.all_eq_true.1 hall c h)

/-- Characters outside ASCII are no digits. -/
theorem lt_of_garlicDigit_mem {protocol : GarlicProtocol} {c : Char}
    (h : garlicDigit protocol c ∈ protocol.alphabet.digits) : c.toNat < 128 := by
  have hall : protocol.alphabet.digits.all fun c => c.toNat < 128 := by
    cases protocol <;> decide +kernel
  unfold garlicDigit at h
  split at h
  · decide
  · decide
  · exact of_decide_eq_true (List.all_eq_true.1 hall c h)

theorem utf8ByteSize_encode (protocol : GarlicProtocol) (address : Bytes) :
    (String.ofList (protocol.alphabet.encode address)).utf8ByteSize =
      (protocol.alphabet.encode address).length := by
  apply Utf8.utf8ByteSize_eq_length
  intro c hc
  have hdigit := BitAlphabet.mem_digits_of_mem_encode hc
  rw [← (garlicDigit_of_mem hdigit).1] at hdigit
  exact lt_of_garlicDigit_mem hdigit

/-- A garlic address reads back if its text has a length that is in use. -/
theorem garlicValue_encode {protocol : GarlicProtocol} {address : Bytes}
    (h : protocol.Fits (protocol.alphabet.encode address).length) :
    garlicValue protocol (protocol.alphabet.encode address) = .ok address := by
  have hdigits : (protocol.alphabet.encode address).map (garlicDigit protocol) =
      protocol.alphabet.encode address := by
    conv_rhs => rw [← List.map_id (protocol.alphabet.encode address)]
    apply List.map_congr_left
    intro c hc
    exact (garlicDigit_of_mem (BitAlphabet.mem_digits_of_mem_encode hc)).1
  rw [garlicValue, utf8ByteSize_encode, if_pos h, hdigits, BitAlphabet.decode?_encode]
  rfl

theorem slash_not_mem_encode (protocol : GarlicProtocol) (address : Bytes) :
    '/' ∉ protocol.alphabet.encode address :=
  fun h => (garlicDigit_of_mem (BitAlphabet.mem_digits_of_mem_encode h)).2 rfl

/-- The text of what is read as a garlic address has the length of the text that was read. -/
theorem fits_of_garlicValue {protocol : GarlicProtocol} {cs : List Char} {address : Bytes}
    (h : garlicValue protocol cs = .ok address) :
    protocol.Fits (protocol.alphabet.encode address).length := by
  rw [garlicValue] at h
  split at h
  · next hfits =>
      have hread := required_eq_ok.1 h
      have hascii : ∀ c ∈ cs, c.toNat < 128 := fun c hc =>
        lt_of_garlicDigit_mem (BitAlphabet.mem_digits_of_decode? hread (List.mem_map_of_mem hc))
      rw [BitAlphabet.length_encode_of_decode? hread, List.length_map,
        ← Utf8.utf8ByteSize_eq_length hascii]
      exact hfits
  · cases h

/-! ## Digests of certificates -/

theorem certhash_read {hash : TaggedDigest} (h : hash.WellFormed) :
    (Multibase.decode? (certhashChars hash)).bind TaggedDigest.ofBytes? = some hash := by
  have hbase : Multibase.base? 'u' = some (.bits .url64) := rfl
  rw [certhashChars, Multibase.decode?, hbase, Option.bind_some, Multibase.Spelling.decode?,
    BitAlphabet.decode?_encode, Option.bind_some, TaggedDigest.ofBytes?_toBytes h]

theorem slash_not_mem_certhashChars (hash : TaggedDigest) : '/' ∉ certhashChars hash := by
  rw [certhashChars, List.mem_cons, not_or]
  constructor
  · decide
  · exact fun h => absurd (BitAlphabet.mem_digits_of_mem_encode h) (by decide)

/-! ## One segment -/

theorem ofWords_bare {name : List Char} {s : Segment} (h : bareSegment? name = some s)
    (rest : List (List Char)) : ofWords (name :: rest) = (ofWords rest).map (s :: ·) := by
  rw [ofWords, h]
  cases ofWords rest with
  | error e => rfl
  | ok segments => rfl

theorem ofWords_value {name value : List Char} {s : Segment}
    {read : List Char → Except AddressError Segment} (hname : bareSegment? name = none)
    (hreader : valueReader name = some read) (hread : read value = .ok s)
    (rest : List (List Char)) :
    ofWords (name :: value :: rest) = (ofWords rest).map (s :: ·) := by
  rw [ofWords, hname, hreader]
  simp only [hread]
  cases ofWords rest with
  | error e => rfl
  | ok segments => rfl

/-- A segment is read from the front of its words. -/
theorem ofWords_segmentWords {s : Segment} (h : s.Representable) (rest : List (List Char)) :
    ofWords (segmentWords s ++ rest) = (ofWords rest).map (s :: ·) := by
  cases s with
  | ip4 ip =>
      apply ofWords_value (by decide) rfl
      simp [Ipv4.parse?_render, required]
  | ip6 ip =>
      apply ofWords_value (by decide) rfl
      simp [Ipv6.parse?_render, required]
  | ipcidr width =>
      apply ofWords_value (by decide) rfl
      simp [numberValue_render width.toNat_lt]
  | port protocol number =>
      have hread : numberValue UInt16.size (Decimal.render number.toNat) = .ok number.toNat :=
        numberValue_render number.toNat_lt
      cases protocol <;>
        exact ofWords_value (by decide) rfl (by simp [hread]) rest
  | text protocol value =>
      have hread : (pure (.text protocol (String.ofList value.toList)) :
          Except AddressError Segment) = .ok (.text protocol value) := by
        rw [String.ofList_toList]
        rfl
      cases protocol <;> exact ofWords_value (by decide) rfl hread rest
  | memory number =>
      apply ofWords_value (by decide) rfl
      simp [numberValue_render number.toNat_lt]
  | p2p peer =>
      apply ofWords_value (by decide) rfl
      simp [PeerId.parse?_render h, required]
  | onion hash number =>
      apply ofWords_value (by decide) rfl
      simp [onionValue_onionChars 2 h.1 h.2]
  | onion3 hash number =>
      apply ofWords_value (by decide) rfl
      simp [onionValue_onionChars 7 h.1 h.2]
  | garlic protocol address =>
      have hread : garlicValue protocol (protocol.alphabet.encode address) = .ok address :=
        garlicValue_encode h
      cases protocol <;> exact ofWords_value (by decide) rfl (by simp only [hread]; rfl) rest
  | certhash hash =>
      apply ofWords_value (by decide) rfl
      rw [certhash_read h]
      rfl
  | httpPath path =>
      apply ofWords_value (by decide) rfl
      simp [Percent.decodeText?_encodeText, required]
  | webSocket secure path =>
      rw [segmentWords]
      split
      · next hpath =>
          subst hpath
          cases secure <;> exact ofWords_bare (by decide) rest
      · cases secure <;>
          exact ofWords_value (by decide) rfl
            (by simp [Percent.decodeText?_encodeText, required]) rest
  | plain protocol =>
      cases protocol <;> exact ofWords_bare (by decide) rest

/-- No word of a segment holds a slash. -/
theorem slash_not_mem_word {s : Segment} (h : s.Representable) :
    ∀ w ∈ segmentWords s, '/' ∉ w := by
  have hnumber : ∀ n, '/' ∉ Decimal.render n := Decimal.not_mem_render (by decide)
  have hpath : ∀ path, '/' ∉ (Percent.encodeText path).toList :=
    fun path h => Percent.ne_slash_of_mem_encodeText h rfl
  cases s with
  | ip4 ip =>
      have hvalue : '/' ∉ ip.render := Ipv4.not_mem_render (by decide) (by decide) ip
      simp [segmentWords, hvalue]
  | ip6 ip => simp [segmentWords, Ipv6.slash_not_mem_render ip]
  | ipcidr width => simp [segmentWords, hnumber]
  | port protocol number => cases protocol <;> simp [segmentWords, PortProtocol.name, hnumber]
  | text protocol value =>
      have hvalue : '/' ∉ value.toList := h
      cases protocol <;> simp [segmentWords, TextProtocol.name, hvalue]
  | memory number => simp [segmentWords, hnumber]
  | p2p peer => simp [segmentWords, PeerId.slash_not_mem_render peer]
  | onion hash number => simp [segmentWords, slash_not_mem_onionChars (k := 2) h.1]
  | onion3 hash number => simp [segmentWords, slash_not_mem_onionChars (k := 7) h.1]
  | garlic protocol address =>
      cases protocol <;> simp [segmentWords, GarlicProtocol.name, slash_not_mem_encode]
  | certhash hash => simp [segmentWords, slash_not_mem_certhashChars hash]
  | webSocket secure path =>
      rw [segmentWords]
      split <;> cases secure <;> simp [hpath]
  | httpPath path => simp [segmentWords, hpath]
  | plain protocol => cases protocol <;> simp [segmentWords, PlainProtocol.name]

/-! ## What is read -/

theorem representable_of_bareSegment? {name : List Char} {s : Segment}
    (h : bareSegment? name = some s) : s.Representable := by
  rw [bareSegment?] at h
  split at h
  · cases h
    trivial
  · split at h
    · cases h
      trivial
    · obtain ⟨protocol, -, rfl⟩ := Option.map_eq_some_iff.1 h
      trivial

/-- The reader makes representable segments only. -/
def Sound (read : List Char → Except AddressError Segment) : Prop :=
  ∀ value s, '/' ∉ value → read value = .ok s → s.Representable

/-- Segments made of values that are read are representable if every such value makes one. -/
theorem sound_of_bind {α : Type} {read : List Char → Except AddressError α} {make : α → Segment}
    (h : ∀ value a, read value = .ok a → (make a).Representable) :
    Sound fun value => read value >>= fun a => pure (make a) := by
  intro value s _ hread
  obtain ⟨a, ha, hs⟩ := bind_eq_ok.1 hread
  cases hs
  exact h value a ha

theorem sound_of_ite {p : Prop} [Decidable p] {read : List Char → Except AddressError Segment}
    {others : Option (List Char → Except AddressError Segment)} (hread : Sound read)
    (hothers : ∀ other, others = some other → Sound other) :
    ∀ other, (if p then some read else others) = some other → Sound other := by
  intro other h
  split at h
  · exact Option.some.inj h ▸ hread
  · exact hothers other h

theorem sound_of_orElse {first others : Option (List Char → Except AddressError Segment)}
    (hfirst : ∀ other, first = some other → Sound other)
    (hothers : ∀ other, others = some other → Sound other) :
    ∀ other, (first <|> others) = some other → Sound other := by
  intro other h
  cases first with
  | none => exact hothers other h
  | some read => exact hfirst other h

theorem sound_of_map {α : Type} {found : Option α}
    {read : α → List Char → Except AddressError Segment} (hread : ∀ a, Sound (read a)) :
    ∀ other, found.map read = some other → Sound other := by
  intro other h
  obtain ⟨a, -, rfl⟩ := Option.map_eq_some_iff.1 h
  exact hread a

theorem sound_of_valueReader (name : List Char) :
    ∀ read, valueReader name = some read → Sound read := by
  -- one case for each name, then one for each family of names
  refine sound_of_ite (sound_of_bind ?ip4) <| sound_of_ite (sound_of_bind ?ip6) <|
    sound_of_ite (sound_of_bind ?ipcidr) <| sound_of_ite (sound_of_bind ?memory) <|
    sound_of_ite (sound_of_bind ?p2p) <| sound_of_ite (sound_of_bind ?onion) <|
    sound_of_ite (sound_of_bind ?onion3) <| sound_of_ite (sound_of_bind ?certhash) <|
    sound_of_ite (sound_of_bind ?httpPath) <| sound_of_ite (sound_of_bind ?webSocket) <|
    sound_of_orElse (sound_of_map fun _ => sound_of_bind ?port) <|
    sound_of_orElse (sound_of_map fun _ => sound_of_bind ?garlic) (sound_of_map ?text)
  case ip4 | ip6 | ipcidr | memory | httpPath | webSocket | port => exact fun _ _ _ => trivial
  case p2p => exact fun _ _ h => PeerId.wellFormed_of_parse? (required_eq_ok.1 h)
  case onion => exact fun _ _ h => of_onionValue (by decide) h
  case onion3 => exact fun _ _ h => of_onionValue (by decide) h
  case certhash =>
    intro value hash h
    obtain ⟨bytes, -, hbytes⟩ := Option.bind_eq_some_iff.1 (required_eq_ok.1 h)
    exact TaggedDigest.wellFormed_of_ofBytes? hbytes
  case garlic => exact fun _ _ h => fits_of_garlicValue h
  case text =>
    intro protocol value s hslash hread
    cases hread
    change '/' ∉ (String.ofList value).toList
    rw [String.toList_ofList]
    exact hslash

theorem representable_of_ofWords {words : List (List Char)} {addr : Multiaddr}
    (hwords : ∀ w ∈ words, '/' ∉ w) (h : ofWords words = .ok addr) :
    ∀ s ∈ addr, s.Representable := by
  induction words using ofWords.induct generalizing addr with
  | case1 =>
      cases h
      exact nofun
  | case2 name rest s hbare ih =>
      rw [ofWords, hbare] at h
      obtain ⟨segments, hsegments, h⟩ := bind_eq_ok.1 h
      cases h
      rw [List.forall_mem_cons]
      constructor
      · exact representable_of_bareSegment? hbare
      · exact ih (fun w hw => hwords w (List.mem_cons_of_mem _ hw)) hsegments
  | case3 name rest hbare hreader =>
      rw [ofWords, hbare, hreader] at h
      cases h
  | case4 name hbare read hreader =>
      rw [ofWords, hbare, hreader] at h
      cases h
  | case5 name hbare read hreader value rest ih =>
      rw [ofWords, hbare, hreader] at h
      obtain ⟨s, hread, h⟩ := bind_eq_ok.1 h
      obtain ⟨segments, hsegments, h⟩ := bind_eq_ok.1 h
      cases h
      rw [List.forall_mem_cons, List.forall_mem_cons] at hwords
      rw [List.forall_mem_cons]
      constructor
      · exact sound_of_valueReader name read hreader value s hwords.2.1 hread
      · exact ih hwords.2.2 hsegments

/-- Only representable segments are read. -/
theorem representable_of_parse {cs : List Char} {addr : Multiaddr} (h : parse cs = .ok addr) :
    ∀ s ∈ addr, s.Representable := by
  rw [parse] at h
  split at h
  · cases h
  · next start words hwords =>
      split at h
      · apply representable_of_ofWords _ h
        intro w hw
        exact not_mem_of_mem_splitAt (hwords ▸ List.mem_cons_of_mem start hw)
      · cases h

/-! ## Whole addresses -/

theorem ofWords_words {addr : Multiaddr} (h : ∀ s ∈ addr, s.Representable) :
    ofWords (addr.flatMap segmentWords) = .ok addr := by
  induction addr with
  | nil => rfl
  | cons s addr ih =>
      rw [List.flatMap_cons, ofWords_segmentWords (h s List.mem_cons_self),
        ih fun t ht => h t (List.mem_cons_of_mem s ht)]
      rfl

/-- Every word is written after a slash. -/
theorem render_eq_intercalate (addr : Multiaddr) :
    addr.render = ['/'].intercalate ([] :: addr.flatMap segmentWords) := by
  have hjoin : ∀ (w : List Char) (ws : List (List Char)),
      ['/'].intercalate (w :: ws) = w ++ ws.flatMap ('/' :: ·) := by
    intro w ws
    induction ws generalizing w with
    | nil => simp [List.intercalate]
    | cons v ws ih => rw [List.intercalate_cons_cons, ih]; simp
  rw [hjoin, List.nil_append, List.flatMap_assoc]
  rfl

/-- An address of representable segments reads back from its text. -/
theorem parse_render {addr : Multiaddr} (h : ∀ s ∈ addr, s.Representable) :
    parse addr.render = .ok addr := by
  have hwords : ∀ w ∈ [] :: addr.flatMap segmentWords, '/' ∉ w := by
    intro w hw
    rcases List.mem_cons.1 hw with rfl | hw
    · exact List.not_mem_nil
    · obtain ⟨s, hs, hw⟩ := List.mem_flatMap.1 hw
      exact slash_not_mem_word (h s hs) w hw
  rw [parse, render_eq_intercalate, splitAt_intercalate hwords (List.cons_ne_nil _ _)]
  exact ofWords_words h

end Multiaddr

end GossipDirectory
