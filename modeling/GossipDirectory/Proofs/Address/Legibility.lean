import GossipDirectory.Proofs.Address.MultiaddrText

/-!
# Addresses that do not read back

Addresses that come as bytes may hold what no text writes: free text with slashes in it, onion
addresses without a port, and garlic addresses of any length. Slashes make more words of the text,
so the rest of the value is read as segments of its own. Without slashes an address reads back
exactly when its onion addresses have ports and its garlic addresses a length that is in use.
-/

namespace GossipDirectory

namespace Segment

/-- What every segment guarantees, wherever it comes from. -/
def WellFormed : Segment → Prop
  | .p2p peer => peer.WellFormed
  | .onion hash _ => hash.length = 10
  | .onion3 hash _ => hash.length = 35
  | .certhash hash => hash.WellFormed
  | _ => True

/-- The segment has no slash in free text. -/
def Slashless : Segment → Prop
  | .text _ value => '/' ∉ value.toList
  | _ => True

/-- No text writes the value of the segment. -/
def Unwritable : Segment → Prop
  | .onion _ number => number = 0
  | .onion3 _ number => number = 0
  | .garlic protocol address => ¬ protocol.Fits (protocol.alphabet.encode address).length
  | _ => False

theorem representable_or_unwritable {s : Segment} (hwell : s.WellFormed) (hslash : s.Slashless) :
    s.Representable ∨ s.Unwritable := by
  cases s with
  | onion hash number => exact (Decidable.em (number = 0)).symm.imp_left fun h => ⟨hwell, h⟩
  | onion3 hash number => exact (Decidable.em (number = 0)).symm.imp_left fun h => ⟨hwell, h⟩
  | garlic protocol address => exact Decidable.em (protocol.Fits _)
  | text protocol value => exact .inl hslash
  | p2p peer => exact .inl hwell
  | certhash hash => exact .inl hwell
  | _ => exact .inl trivial

end Segment

namespace Multiaddr

/-- The text of the address is the text of some address. -/
def Legible (address : Multiaddr) : Prop :=
  ∃ read, ofText address.toText = .ok read

theorem legible_iff {address : Multiaddr} :
    address.Legible ↔ ∃ read, parse address.render = .ok read := by
  rw [Legible, ofText, toText, String.toList_ofList]
  exact exists_congr fun _ => mapError_eq_ok

theorem not_legible_of_parse {address : Multiaddr} {e : AddressError}
    (h : parse address.render = .error e) : ¬ address.Legible := by
  rintro hlegible
  obtain ⟨read, hread⟩ := legible_iff.1 hlegible
  rw [h] at hread
  cases hread

theorem legible_of_representable {address : Multiaddr} (h : ∀ s ∈ address, s.Representable) :
    address.Legible :=
  legible_iff.2 ⟨address, parse_render h⟩

/-! ## Words with slashes -/

theorem splitAt_append_cons (separator : Char) (xs ys : List Char) :
    splitAt separator (xs ++ separator :: ys) = splitAt separator xs ++ splitAt separator ys := by
  simp only [splitAt_eq_splitOn, List.splitOn_eq_splitOnP]
  exact List.splitOnP_append_cons xs ys (beq_self_eq_true separator)

theorem splitAt_of_not_mem {separator : Char} {cs : List Char} (h : separator ∉ cs) :
    splitAt separator cs = [cs] := by
  rw [splitAt_eq_splitOn, List.splitOn_eq_singleton h]

theorem flatMap_splitAt_of_not_mem {separator : Char} {words : List (List Char)}
    (h : ∀ w ∈ words, separator ∉ w) : words.flatMap (splitAt separator) = words := by
  induction words with
  | nil => rfl
  | cons w words ih =>
      rw [List.flatMap_cons, splitAt_of_not_mem (h w List.mem_cons_self),
        ih fun v hv => h v (List.mem_cons_of_mem w hv)]
      rfl

/-- A word with slashes counts as the words between them. -/
theorem parse_render_eq (address : Multiaddr) :
    parse address.render = ofWords ((address.flatMap segmentWords).flatMap (splitAt '/')) := by
  have hwords : ∀ (w : List Char) (ws : List (List Char)),
      splitAt '/' (w ++ ws.flatMap ('/' :: ·)) = splitAt '/' w ++ ws.flatMap (splitAt '/') := by
    intro w ws
    induction ws generalizing w with
    | nil => simp
    | cons v ws ih =>
        rw [List.flatMap_cons, List.flatMap_cons, List.cons_append, splitAt_append_cons, ih]
  have hrender : address.render = [] ++ (address.flatMap segmentWords).flatMap ('/' :: ·) := by
    rw [List.nil_append, List.flatMap_assoc]
    rfl
  rw [parse, hrender, hwords]
  rfl

/-- Representable segments in front are read whatever follows. -/
theorem parse_render_append {before : Multiaddr} (hbefore : ∀ s ∈ before, s.Representable)
    (rest : Multiaddr) :
    parse (render (before ++ rest)) = (parse rest.render).map (before ++ ·) := by
  rw [parse_render_eq, parse_render_eq]
  induction before with
  | nil =>
      change _ = Except.map id _
      rw [Except.map_id]
      rfl
  | cons s before ih =>
      have hs := hbefore s List.mem_cons_self
      rw [List.cons_append, List.flatMap_cons, List.flatMap_append,
        flatMap_splitAt_of_not_mem (slash_not_mem_word hs), ofWords_segmentWords hs,
        ih fun t ht => hbefore t (List.mem_cons_of_mem s ht)]
      cases ofWords ((rest.flatMap segmentWords).flatMap (splitAt '/')) <;> rfl

theorem legible_append_iff {before rest : Multiaddr} (hbefore : ∀ s ∈ before, s.Representable) :
    Legible (before ++ rest) ↔ rest.Legible := by
  rw [legible_iff, legible_iff, parse_render_append hbefore]
  cases parse rest.render with
  | error e => exact ⟨nofun, nofun⟩
  | ok read => exact iff_of_true ⟨_, rfl⟩ ⟨_, rfl⟩

/-! ## What does not read back -/

/-- A value that its protocol does not read spoils the address. -/
theorem parse_render_unreadable {s : Segment} {name value : List Char} {e : AddressError}
    {read : List Char → Except AddressError Segment} (hwords : segmentWords s = [name, value])
    (hslash : ∀ w ∈ [name, value], '/' ∉ w) (hname : bareSegment? name = none)
    (hreader : valueReader name = some read) (hread : read value = .error e) (after : Multiaddr) :
    parse (render (s :: after)) = .error e := by
  rw [parse_render_eq, List.flatMap_cons, List.flatMap_append, hwords,
    flatMap_splitAt_of_not_mem hslash, List.cons_append, List.cons_append, ofWords, hname, hreader]
  simp only [hread]
  rfl

/-- A text value is cut at its first slash, and what follows has to be a protocol. -/
theorem parse_render_text {protocol : TextProtocol} {value : String} {host word : List Char}
    {more : List (List Char)} (hvalue : splitAt '/' value.toList = host :: word :: more)
    (hbare : bareSegment? word = none) (hreader : valueReader word = none) (after : Multiaddr) :
    parse (render (.text protocol value :: after)) =
      .error (.unknownProtocol (String.ofList word)) := by
  have hword : ∀ rest, ofWords (word :: rest) = .error (.unknownProtocol (String.ofList word)) := by
    intro rest
    rw [ofWords, hbare, hreader]
  have hname : splitAt '/' protocol.name.toList = [protocol.name.toList] :=
    splitAt_of_not_mem (by cases protocol <;> decide)
  have hwords :
      ((Segment.text protocol value :: after).flatMap segmentWords).flatMap (splitAt '/') =
      protocol.name.toList :: host :: word ::
        (more ++ (after.flatMap segmentWords).flatMap (splitAt '/')) := by
    simp [segmentWords, hname, hvalue]
  have hcut : ∀ rest, ofWords (protocol.name.toList :: host :: rest) =
      (ofWords rest).map (.text protocol (String.ofList host) :: ·) := by
    intro rest
    cases protocol <;> exact ofWords_value (by decide) rfl rfl rest
  rw [parse_render_eq, hwords, hcut, hword]
  rfl

theorem onionValue_portless (k : Nat) {hash : Bytes} (hlength : hash.length = k * 5) :
    onionValue (k * 5) (k * 8) (onionChars hash 0) = .error .notAnAddress := by
  have hnumber : numberValue UInt16.size (Decimal.render (0 : UInt16).toNat) = .ok 0 :=
    numberValue_render (by decide)
  rw [onionValue, splitAt_onionChars hlength]
  dsimp only
  split
  · rfl
  · rw [hnumber]
    rfl

/-- An onion address without a port is no address. -/
theorem parse_render_portless {s : Segment} (hwell : s.WellFormed)
    (hportless : (∃ hash, s = .onion hash 0) ∨ ∃ hash, s = .onion3 hash 0) (after : Multiaddr) :
    parse (render (s :: after)) = .error .notAnAddress := by
  have hslash : ∀ {k : Nat} {hash : Bytes} {name : List Char}, hash.length = k * 5 →
      '/' ∉ name → ∀ w ∈ [name, onionChars hash 0], '/' ∉ w := by
    intro k hash name hlength hname
    simp [hname, slash_not_mem_onionChars hlength]
  rcases hportless with ⟨hash, rfl⟩ | ⟨hash, rfl⟩
  · apply parse_render_unreadable rfl (hslash (k := 2) hwell (by decide)) (by decide) rfl
    simp only [onionValue_portless 2 hwell]
    rfl
  · apply parse_render_unreadable rfl (hslash (k := 7) hwell (by decide)) (by decide) rfl
    simp only [onionValue_portless 7 hwell]
    rfl

/-- A garlic address of another length counts as a protocol without its value. -/
theorem parse_render_misfit {protocol : GarlicProtocol} {address : Bytes}
    (h : ¬ protocol.Fits (protocol.alphabet.encode address).length) (after : Multiaddr) :
    parse (render (.garlic protocol address :: after)) = .error .missingValue := by
  have hvalue : garlicValue protocol (protocol.alphabet.encode address) = .error .missingValue := by
    rw [garlicValue, utf8ByteSize_encode, if_neg h]
  have hslash : ∀ w ∈ [protocol.name.toList, protocol.alphabet.encode address], '/' ∉ w := by
    have hname : '/' ∉ protocol.name.toList := by cases protocol <;> decide
    simp [hname, slash_not_mem_encode]
  cases protocol <;>
    exact parse_render_unreadable rfl hslash (by decide) rfl (by simp only [hvalue]; rfl) after

theorem parse_render_unwritable {s : Segment} (hwell : s.WellFormed) (h : s.Unwritable)
    (after : Multiaddr) : ∃ e, parse (render (s :: after)) = .error e := by
  cases s with
  | onion hash number =>
      cases h
      exact ⟨_, parse_render_portless hwell (.inl ⟨hash, rfl⟩) after⟩
  | onion3 hash number =>
      cases h
      exact ⟨_, parse_render_portless hwell (.inr ⟨hash, rfl⟩) after⟩
  | garlic protocol address => exact ⟨_, parse_render_misfit h after⟩
  | _ => cases h

/-- Without slashes only missing ports and lengths that are not in use keep an address from reading
back. -/
theorem legible_iff_representable {address : Multiaddr}
    (h : ∀ s ∈ address, s.WellFormed ∧ s.Slashless) :
    address.Legible ↔ ∀ s ∈ address, s.Representable := by
  refine ⟨fun hlegible => ?_, legible_of_representable⟩
  induction address with
  | nil => exact nofun
  | cons s address ih =>
      obtain ⟨hs, haddress⟩ := List.forall_mem_cons.1 h
      rcases Segment.representable_or_unwritable hs.1 hs.2 with hrepresentable | hunwritable
      · have hfront : ∀ t ∈ [s], t.Representable := by simpa using hrepresentable
        have hrest : Legible address := (legible_append_iff hfront).1 hlegible
        exact List.forall_mem_cons.2 ⟨hrepresentable, ih haddress hrest⟩
      · obtain ⟨e, he⟩ := parse_render_unwritable hs.1 hunwritable address
        exact absurd hlegible (not_legible_of_parse he)

end Multiaddr

end GossipDirectory
