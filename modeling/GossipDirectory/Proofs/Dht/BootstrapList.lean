import GossipDirectory.Dht.Bootstrap
import GossipDirectory.Proofs.Address.MultiaddrText
import Mathlib.Data.List.DropRight
import Mathlib.Data.List.TakeWhile

/-!
# Lists of bootstrap addresses

A list consists of pieces between commas. A piece is blank or has white space around one entry, and
any text is such a list in one way only. The addresses of a list are those that its entries write,
and the first entry that writes none makes the whole list fail. So addresses read back from any list
of their texts, however it is laid out, if these texts can be entries.
-/

namespace GossipDirectory

/-- The text holds nothing but white space. -/
def AllBlank (cs : List Char) : Prop :=
  ∀ c ∈ cs, Blank.isBlank c = true

instance (cs : List Char) : Decidable (AllBlank cs) :=
  List.decidableBAll (fun c => Blank.isBlank c = true) cs

/-- A text that can be an entry of a list: not empty, without commas, and without white space at its
ends. -/
structure IsEntry (entry : List Char) : Prop where
  ne_nil : entry ≠ []
  comma : ',' ∉ entry
  head : entry.head?.any Blank.isBlank = false
  last : entry.getLast?.any Blank.isBlank = false

/-- Entries with white space around them, and blank pieces between them. -/
inductive Encloses : (pieces entries : List (List Char)) → Prop
  | nil : Encloses [] []
  | blank {piece : List Char} {pieces entries : List (List Char)} (hpiece : AllBlank piece)
      (h : Encloses pieces entries) : Encloses (piece :: pieces) entries
  | entry {before entry after : List Char} {pieces entries : List (List Char)}
      (hbefore : AllBlank before) (hafter : AllBlank after) (h : Encloses pieces entries) :
      Encloses ((before ++ entry ++ after) :: pieces) (entry :: entries)

/-- A text lists entries if commas stand between pieces that enclose them. -/
def ListsEntries (text : String) (entries : List (List Char)) : Prop :=
  ∃ pieces, Encloses pieces entries ∧ text = String.ofList ([','].intercalate pieces)

/-- An address that can be listed: a text writes it, and its own text can be an entry. -/
structure Multiaddr.Listable (address : Multiaddr) : Prop where
  ne_nil : address ≠ []
  written : ∃ text, ofText text = .ok address
  comma : ',' ∉ address.render
  last : address.render.getLast?.any Blank.isBlank = false

variable {piece before entry after : List Char} {pieces entries : List (List Char)} {text : String}

/-! ## White space around an entry -/

namespace Blank

theorem trim_eq_rdropWhile (cs : List Char) :
    trim cs = (cs.dropWhile isBlank).rdropWhile isBlank :=
  rfl

theorem trim_of_allBlank (h : AllBlank piece) : trim piece = [] := by
  rw [trim_eq_rdropWhile, List.dropWhile_eq_nil_iff.2 h, List.rdropWhile_nil]

theorem trim_surrounded (hbefore : AllBlank before) (hafter : AllBlank after)
    (h : IsEntry entry) : trim (before ++ entry ++ after) = entry := by
  have hfront : (before ++ entry ++ after).dropWhile isBlank = entry ++ after := by
    obtain ⟨first, rest, rfl⟩ := List.exists_cons_of_ne_nil h.ne_nil
    have hfirst : ¬isBlank first = true := Bool.eq_false_iff.1 h.head
    rw [List.append_assoc, List.dropWhile_append_of_pos hbefore, List.cons_append,
      List.dropWhile_cons_of_neg hfirst]
  have hback : (entry ++ after).rdropWhile isBlank = entry.rdropWhile isBlank := by
    rw [List.rdropWhile, List.reverse_append, List.dropWhile_append_of_pos]
    · rfl
    · exact fun c hc => hafter c (List.mem_reverse.1 hc)
  rw [trim_eq_rdropWhile, hfront, hback, List.rdropWhile_eq_self_iff]
  intro hne
  have hlast := h.last
  rw [List.getLast?_eq_some_getLast hne] at hlast
  exact Bool.eq_false_iff.1 hlast

/-- What is trimmed off is white space. -/
theorem exists_eq_append_trim (cs : List Char) :
    ∃ before after, AllBlank before ∧ AllBlank after ∧ cs = before ++ trim cs ++ after := by
  refine ⟨cs.takeWhile isBlank, (cs.dropWhile isBlank).rtakeWhile isBlank, ?_, ?_, ?_⟩
  · exact fun c hc => List.mem_takeWhile_imp hc
  · exact fun c hc => List.mem_rtakeWhile_imp hc
  · rw [trim_eq_rdropWhile, List.append_assoc, List.rdropWhile_append_rtakeWhile,
      List.takeWhile_append_dropWhile]

theorem isEntry_trim (hcomma : ',' ∉ piece) (hne : trim piece ≠ []) : IsEntry (trim piece) := by
  obtain ⟨before, after, -, -, hpiece⟩ := exists_eq_append_trim piece
  refine ⟨hne, ?_, ?_, ?_⟩
  · intro hmem
    rw [hpiece] at hcomma
    exact hcomma (List.mem_append_left _ (List.mem_append_right _ hmem))
  · obtain ⟨rest, hrest⟩ := List.rdropWhile_prefix isBlank (piece.dropWhile isBlank)
    have hfirst := List.head?_dropWhile_not isBlank piece
    rw [← hrest, ← trim_eq_rdropWhile, List.head?_append_of_ne_nil _ hne] at hfirst
    cases hhead : (trim piece).head? with
    | none => rfl
    | some c =>
        rw [hhead] at hfirst
        exact hfirst
  · rw [List.getLast?_eq_some_getLast hne]
    exact Bool.eq_false_iff.2 (List.rdropWhile_last_not isBlank (piece.dropWhile isBlank) hne)

end Blank

/-! ## Lists with commas -/

/-- Trimming the pieces gives the entries and empty texts between them. -/
theorem Encloses.filter_trim (h : Encloses pieces entries) (hentries : ∀ e ∈ entries, IsEntry e) :
    ((pieces.map Blank.trim).filter fun entry => !entry.isEmpty) = entries := by
  induction h with
  | nil => rfl
  | blank hpiece h ih =>
      rw [List.map_cons, Blank.trim_of_allBlank hpiece, List.filter_cons_of_neg (by simp)]
      exact ih hentries
  | entry hbefore hafter h ih =>
      obtain ⟨hentry, hentries⟩ := List.forall_mem_cons.1 hentries
      rw [List.map_cons, Blank.trim_surrounded hbefore hafter hentry,
        List.filter_cons_of_pos (by simpa using hentry.ne_nil), ih hentries]

theorem encloses_filter_trim (pieces : List (List Char)) :
    Encloses pieces ((pieces.map Blank.trim).filter fun entry => !entry.isEmpty) := by
  induction pieces with
  | nil => exact .nil
  | cons piece pieces ih =>
      obtain ⟨before, after, hbefore, hafter, hpiece⟩ := Blank.exists_eq_append_trim piece
      rw [List.map_cons]
      by_cases hblank : Blank.trim piece = []
      · rw [hblank, List.filter_cons_of_neg (by simp)]
        refine .blank ?_ ih
        rw [hpiece, hblank, List.append_nil]
        exact List.forall_mem_append.2 ⟨hbefore, hafter⟩
      · rw [List.filter_cons_of_pos (by simpa using hblank)]
        conv in piece :: pieces => rw [hpiece]
        exact .entry hbefore hafter ih

/-- White space is no comma, so the pieces hold no commas if the entries do not. -/
theorem Encloses.comma_not_mem (h : Encloses pieces entries)
    (hentries : ∀ e ∈ entries, IsEntry e) : ∀ p ∈ pieces, ',' ∉ p := by
  have hblank : ∀ {cs}, AllBlank cs → ',' ∉ cs := fun h hmem => absurd (h ',' hmem) (by decide)
  induction h with
  | nil => exact nofun
  | blank hpiece h ih => exact List.forall_mem_cons.2 ⟨hblank hpiece, ih hentries⟩
  | entry hbefore hafter h ih =>
      obtain ⟨hentry, hentries⟩ := List.forall_mem_cons.1 hentries
      refine List.forall_mem_cons.2 ⟨?_, ih hentries⟩
      simp only [List.mem_append, not_or]
      exact ⟨⟨hblank hbefore, hentry.comma⟩, hblank hafter⟩

theorem bootstrapEntries_eq (h : ListsEntries text entries) (hentries : ∀ e ∈ entries, IsEntry e) :
    bootstrapEntries text = entries := by
  obtain ⟨pieces, hpieces, rfl⟩ := h
  rw [bootstrapEntries, String.toList_ofList]
  by_cases hne : pieces = []
  · subst hne
    cases hpieces
    rfl
  · rw [splitAt_intercalate (hpieces.comma_not_mem hentries) hne]
    exact hpieces.filter_trim hentries

/-- Any text is a list with commas. -/
theorem lists_bootstrapEntries (text : String) :
    ListsEntries text (bootstrapEntries text) ∧ ∀ e ∈ bootstrapEntries text, IsEntry e := by
  constructor
  · refine ⟨splitAt ',' text.toList, encloses_filter_trim _, ?_⟩
    rw [splitAt_eq_splitOn, List.intercalate_splitOn, String.ofList_toList]
  · intro entry hmem
    obtain ⟨hmem, hne⟩ := List.mem_filter.1 hmem
    obtain ⟨piece, hpiece, rfl⟩ := List.mem_map.1 hmem
    exact Blank.isEntry_trim (not_mem_of_mem_splitAt hpiece) (by simpa using hne)

/-! ## The addresses of a list -/

variable {addresses : List Multiaddr} {cause : Failure}

theorem parseBootstrapList_eq (text : String) :
    parseBootstrapList text =
      (bootstrapEntries text).mapM fun entry => Multiaddr.ofText (String.ofList entry) := by
  simp only [parseBootstrapList, Multiaddr.ofText, String.toList_ofList]

theorem parseBootstrapList_eq_ok_iff (h : ListsEntries text entries)
    (hentries : ∀ e ∈ entries, IsEntry e) :
    parseBootstrapList text = .ok addresses ↔
      List.Forall₂ (fun entry a => Multiaddr.ofText (String.ofList entry) = .ok a) entries
        addresses := by
  rw [parseBootstrapList_eq, bootstrapEntries_eq h hentries, mapM_eq_ok_iff]

/-- The first entry that is no address decides how a list fails. -/
theorem parseBootstrapList_eq_error_iff (h : ListsEntries text entries)
    (hentries : ∀ e ∈ entries, IsEntry e) :
    parseBootstrapList text = .error cause ↔
      ∃ before entry after, entries = before ++ entry :: after ∧
        (∀ e ∈ before, ∃ a, Multiaddr.ofText (String.ofList e) = .ok a) ∧
        Multiaddr.ofText (String.ofList entry) = .error cause := by
  rw [parseBootstrapList_eq, bootstrapEntries_eq h hentries, mapM_eq_error_iff]

namespace Multiaddr

theorem segmentWords_ne_nil (s : Segment) : segmentWords s ≠ [] := by
  cases s with
  | webSocket secure path =>
      rw [segmentWords]
      split <;> exact List.cons_ne_nil _ _
  | _ => exact List.cons_ne_nil _ _

theorem head?_render {address : Multiaddr} (h : address ≠ []) :
    address.render.head? = some '/' := by
  obtain ⟨s, rest, rfl⟩ := List.exists_cons_of_ne_nil h
  obtain ⟨word, words, hwords⟩ := List.exists_cons_of_ne_nil (segmentWords_ne_nil s)
  rw [render, List.flatMap_cons, segmentChars, hwords]
  rfl

namespace Listable

variable {address : Multiaddr}

theorem ofText_render (h : address.Listable) :
    ofText (String.ofList address.render) = .ok address := by
  obtain ⟨text, htext⟩ := h.written
  rw [ofText, String.toList_ofList, parse_render]
  · rfl
  · exact representable_of_parse (mapError_eq_ok.1 htext)

theorem isEntry_render (h : address.Listable) : IsEntry address.render := by
  have hhead := head?_render h.ne_nil
  refine ⟨?_, h.comma, ?_, h.last⟩
  · intro hnil
    rw [hnil] at hhead
    cases hhead
  · rw [hhead]
    decide

end Listable

end Multiaddr

/-- Addresses read back from any list of their texts. Any text lists entries in one way, and gives
the addresses that its entries write, all of them or none: the first entry that is no address
decides. -/
theorem parseBootstrapList_inverts :
    (∀ (addresses : List Multiaddr) (text : String), (∀ a ∈ addresses, a.Listable) →
      ListsEntries text (addresses.map Multiaddr.render) → parseBootstrapList text = .ok addresses) ∧
    (∀ text : String, ∃! entries, ListsEntries text entries ∧ ∀ e ∈ entries, IsEntry e) ∧
    ∀ (text : String) (entries : List (List Char)), ListsEntries text entries →
      (∀ e ∈ entries, IsEntry e) →
      (∀ addresses, parseBootstrapList text = .ok addresses ↔
        List.Forall₂ (fun entry a => Multiaddr.ofText (String.ofList entry) = .ok a) entries
          addresses) ∧
      ∀ cause, parseBootstrapList text = .error cause ↔
        ∃ before entry after, entries = before ++ entry :: after ∧
          (∀ e ∈ before, ∃ a, Multiaddr.ofText (String.ofList e) = .ok a) ∧
          Multiaddr.ofText (String.ofList entry) = .error cause := by
  refine ⟨?readBack, ?oneWay, ?allOrNone⟩
  case readBack =>
    intro addresses text hlistable hlists
    have hentries : ∀ e ∈ addresses.map Multiaddr.render, IsEntry e :=
      List.forall_mem_map.2 fun a ha => (hlistable a ha).isEntry_render
    rw [parseBootstrapList_eq_ok_iff hlists hentries, List.forall₂_map_left_iff, List.forall₂_same]
    exact fun a ha => (hlistable a ha).ofText_render
  case oneWay =>
    intro text
    refine ⟨bootstrapEntries text, lists_bootstrapEntries text, fun entries h => ?_⟩
    exact (bootstrapEntries_eq h.1 h.2).symm
  case allOrNone =>
    intro text entries hlists hentries
    constructor
    · exact fun addresses => parseBootstrapList_eq_ok_iff hlists hentries
    · exact fun cause => parseBootstrapList_eq_error_iff hlists hentries

/-- An address with a blank in a name. -/
def blankName : Multiaddr := [.text .dns "a b", .plain .webrtc]

/-- An address of a web socket. -/
def localSocket : Multiaddr := [.ip4 .loopback, .webSocket false "/"]

/-- An address that names the certificate of its host. -/
def certified : Multiaddr :=
  [.plain .webtransport, .certhash { code := 18, digest := List.replicate 32 9 }]

/-- The text of the address. -/
def certifiedText : String :=
  "/webtransport/certhash/uEiAJCQkJCQkJCQkJCQkJCQkJCQkJCQkJCQkJCQkJCQkJCQ"

/-- The addresses read back between blanks and blank entries, and a word that is no address makes
a list fail. -/
theorem spacedAddresses_read :
    parseBootstrapList (",\t/dns/a b/webrtc , \n,/ip4/127.0.0.1/ws," ++ certifiedText) =
      .ok [blankName, localSocket, certified] ∧
    parseBootstrapList "/ws, tcp " = .error (.invalidAddress .notAnAddress) := by
  obtain ⟨hread, -, hall⟩ := parseBootstrapList_inverts
  constructor
  · have hlistable : ∀ a ∈ [blankName, localSocket, certified], a.Listable := by
      refine List.forall_mem_cons.2 ⟨?_, List.forall_mem_cons.2 ⟨?_, List.forall_mem_singleton.2 ?_⟩⟩
      · exact ⟨by decide, ⟨"/dns/a b/webrtc", by rfl⟩, by decide +kernel, by decide +kernel⟩
      · exact ⟨by decide, ⟨"/ip4/127.0.0.1/ws", by rfl⟩, by decide +kernel, by decide +kernel⟩
      · have htext : Multiaddr.ofText certifiedText = .ok certified := by decide +kernel
        exact ⟨by decide, ⟨certifiedText, htext⟩, by decide +kernel, by decide +kernel⟩
    refine hread _ _ hlistable ⟨[[], ['\t'] ++ blankName.render ++ [' '], [' ', '\n'],
      [] ++ localSocket.render ++ [], [] ++ certified.render ++ []], ?_, by decide +kernel⟩
    exact .blank (by decide) (.entry (by decide) (by decide) (.blank (by decide)
      (.entry (by decide) (by decide) (.entry (by decide) (by decide) .nil))))
  · have hlists : ListsEntries "/ws, tcp " ["/ws".toList, "tcp".toList] := by
      refine ⟨[[] ++ "/ws".toList ++ [], [' '] ++ "tcp".toList ++ [' ']], ?_, by decide⟩
      exact .entry (by decide) (by decide) (.entry (by decide) (by decide) .nil)
    have hentries : ∀ e ∈ ["/ws".toList, "tcp".toList], IsEntry e := by
      refine List.forall_mem_cons.2 ⟨?_, List.forall_mem_singleton.2 ?_⟩
      · exact ⟨by decide, by decide, by decide, by decide⟩
      · exact ⟨by decide, by decide, by decide, by decide⟩
    refine ((hall _ _ hlists hentries).2 _).2 ⟨["/ws".toList], "tcp".toList, [], rfl, ?_, by rfl⟩
    exact List.forall_mem_singleton.2 ⟨[.webSocket false "/"], by rfl⟩

end GossipDirectory
