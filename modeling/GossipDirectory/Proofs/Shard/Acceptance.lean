import GossipDirectory.Proofs.CommandLine.AcceptedSettings
import GossipDirectory.Proofs.Shard.Inheritance
import GossipDirectory.Proofs.Text.Encoding

/-!
# When a shard accepts its command line

A parent writes the values of its settings as arguments of their own, where a text that starts with
a dash is taken for a flag. So the shards of a parent come up exactly if none of the texts that the
parent passes on looks like a flag; otherwise every one of them refuses its command line.

## Implementation notes

The seed and the host name were checked when the parent came up: the one is hexadecimal, the other
a network address, so neither looks like a flag.
-/

namespace GossipDirectory

/-! ## Checked texts -/

theorem splitAt_cons_of_ne {separator c : Char} (h : c ≠ separator) (cs : List Char) :
    ∃ piece pieces, splitAt separator (c :: cs) = (c :: piece) :: pieces := by
  rw [splitAt, if_neg h]
  split
  · exact ⟨[], [], rfl⟩
  · exact ⟨_, _, rfl⟩

theorem Ipv4.parse?_dash (cs : List Char) : Ipv4.parse? ('-' :: cs) = none := by
  have hbyte : ∀ piece, Ipv4.byte? ('-' :: piece) = none := by
    intro piece
    rw [Ipv4.byte?]
    split
    · rfl
    · rfl
  obtain ⟨piece, pieces, h⟩ := splitAt_cons_of_ne (show '-' ≠ '.' by decide) cs
  rw [Ipv4.parse?, h]
  split
  case h_1 heq =>
    rw [← (List.cons.inj heq).1, hbyte]
    rfl
  case h_2 => rfl

theorem Ipv6.parse?_dash (cs : List Char) : Ipv6.parse? ('-' :: cs) = none := by
  have hgroup : ∀ piece, Ipv6.group? ('-' :: piece) = none := by
    intro piece
    rw [Ipv6.group?]
    split
    · rfl
    · rfl
  have hpart : ∀ ipv4 cs, Ipv6.part? ipv4 ('-' :: cs) = none := by
    intro ipv4 cs
    obtain ⟨piece, pieces, h⟩ := splitAt_cons_of_ne (show '-' ≠ ':' by decide) cs
    rw [Ipv6.part?, if_neg (by simp), h]
    cases pieces with
    | nil =>
        rw [Ipv6.pieces?, hgroup]
        cases ipv4 with
        | false => rfl
        | true => simp [Ipv4.parse?_dash]
    | cons next pieces =>
        rw [Ipv6.pieces?, hgroup]
        · rfl
        · simp
  have hgap : Ipv6.splitGap ('-' :: cs) =
      (Ipv6.splitGap cs).map fun p => ('-' :: p.1, p.2) := by
    rw [Ipv6.splitGap]
    simp
  rw [Ipv6.parse?, hgap]
  cases Ipv6.splitGap cs with
  | none =>
      simp only [Option.map_none, hpart]
      rfl
  | some p =>
      simp only [Option.map_some, hpart]
      rfl

/-- No network address looks like a flag. -/
theorem IpAddress.not_looksLikeFlag {t : String} (h : (IpAddress.parse? t.toList).isSome) :
    ¬ LooksLikeFlag t := by
  rw [looksLikeFlag_iff]
  rintro ⟨c, cs, ht⟩
  rw [ht, IpAddress.parse?, Ipv4.parse?_dash, Ipv6.parse?_dash] at h
  cases h

/-- No text of hexadecimal bytes looks like a flag, also when white space surrounds it. -/
theorem Hex.not_looksLikeFlag {t : String} {bytes : Bytes}
    (h : Hex.decode (Blank.trimText t) = .ok bytes) : ¬ LooksLikeFlag t := by
  rw [looksLikeFlag_iff]
  rintro ⟨c, cs, ht⟩
  -- The dash is no white space, so the trimmed text starts with it.
  have htrim : ∃ ds, Blank.trim t.toList = '-' :: ds := by
    rw [ht, Blank.trim, List.dropWhile_cons_of_neg (by decide), List.reverse_cons,
      List.dropWhile_append]
    split
    · exact ⟨[], rfl⟩
    · exact ⟨_, by rw [List.reverse_append]; rfl⟩
  obtain ⟨ds, hds⟩ := htrim
  have hencode : Utf8.encode (Blank.trimText t) = 45 :: ds.flatMap String.utf8EncodeChar := by
    rw [Blank.trimText, hds, Utf8.encode_ofList, List.flatMap_cons]
    rfl
  rw [Hex.decode, hencode] at h
  split at h
  · cases h
  · next hodd =>
      cases hrest : ds.flatMap String.utf8EncodeChar with
      | nil => simp [hrest] at hodd
      | cons lo rest =>
          rw [hrest] at h
          cases h

/-! ## Checks of inherited options -/

theorem Options.validate_eq_ok_iff {o : Options} :
    o.validate = .ok () ↔ ¬ o.p2p.highWater < o.p2p.lowWater ∧ o.p2p.room ≠ "" ∧
      (o.p2p.torEnabled → ∃ bytes, o.p2p.seedBytes = .ok bytes) ∧
      (IpAddress.parse? o.p2p.host.toList).isSome := by
  have hlisten : ∀ port, (∃ address, o.p2p.clearnetListenAddress port = .ok address) ↔
      (IpAddress.parse? o.p2p.host.toList).isSome := by
    intro port
    rw [PeerOptions.clearnetListenAddress]
    cases IpAddress.parse? o.p2p.host.toList with
    | none => simp
    | some ip => simp
  rw [← hlisten o.effectiveListenPort]
  unfold Options.validate
  by_cases hwater : o.p2p.highWater < o.p2p.lowWater
  · simp [hwater, bind, Except.bind]
  · by_cases hroom : o.p2p.room = ""
    · simp [hwater, hroom, bind, Except.bind]
    · by_cases htor : o.p2p.torEnabled
      · cases hseed : o.p2p.seedBytes <;>
          cases haddress : o.p2p.clearnetListenAddress o.effectiveListenPort <;>
          simp [hwater, hroom, htor, bind, Except.bind, pure, Except.pure]
      · cases haddress : o.p2p.clearnetListenAddress o.effectiveListenPort <;>
          simp [hwater, hroom, htor, bind, Except.bind, pure, Except.pure]

/-- Only the settings of the peer-to-peer node are checked. -/
theorem Options.validate_congr {o o' : Options} (h : o.p2p = o'.p2p) :
    o.validate = .ok () ↔ o'.validate = .ok () := by
  rw [validate_eq_ok_iff, validate_eq_ok_iff, h]

theorem validate_of_commandLine {line : List String} {files : FileTree} {o : Options}
    (h : optionsOfCommandLine line files = .ok o) : o.validate = .ok () := by
  obtain ⟨a, -, ha⟩ := optionsOfCommandLine_eq_ok h
  exact Arguments.validate_of_toOptions ha

/-! ## The line of a shard -/

/-- The texts that a parent passes on without having checked them. -/
def passedTexts (o : Options) : List String :=
  [o.bus.subject, o.bus.natsHost, o.p2p.bootstrap, o.p2p.room, o.p2p.peerstoreFile,
    o.p2p.socksProxy, o.logLevel]

theorem valued_of_mem_childSettings {childId : UInt32} {o : Options} {s : Setting}
    (h : s ∈ childSettings childId o) : s.1 ≠ .dhtServer := by
  have hflag : s.1 ∈ Keyed.keys (requiredSettings childId o ++ optionalSettings o) := by
    rw [Keyed.keys, List.map_append, List.mem_append]
    rw [childSettings, List.mem_append] at h
    rcases h with h | h
    · exact Or.inl (List.mem_map_of_mem h)
    · exact Or.inr (List.mem_map_of_mem (List.mem_filter.1 h).1)
  intro he
  exact absurd (he ▸ hflag) (by simp [Keyed.keys, requiredSettings, optionalSettings])

theorem reads_of_mem_childSettings {childId : UInt32} {o : Options} {s : Setting}
    (h : s ∈ childSettings childId o) : s.1.Reads s.2 := by
  have hall : ∀ s ∈ requiredSettings childId o ++ optionalSettings o, s.1.Reads s.2 := by
    simp [requiredSettings, optionalSettings, Flag.Reads, Arguments.portOf?_text,
      Arguments.idOf?_text, Arguments.sizeOf?_text]
  rw [childSettings, List.mem_append] at h
  apply hall s
  rcases h with h | h
  · exact List.mem_append_left _ h
  · exact List.mem_append_right _ (List.mem_filter.1 h).1

theorem nodup_keys_childSettings (childId : UInt32) (o : Options) :
    (Keyed.keys (childSettings childId o ++ switchSettings o)).Nodup := by
  have hall : (Keyed.keys (requiredSettings childId o ++ optionalSettings o ++
      [(.dhtServer, "true")])).Nodup := by
    simp [Keyed.keys, requiredSettings, optionalSettings]
  refine hall.sublist ?_
  apply List.Sublist.map
  apply List.Sublist.append
  · exact List.Sublist.append (List.Sublist.refl _) List.filter_sublist
  · unfold switchSettings
    split
    · exact List.Sublist.refl _
    · exact List.nil_sublist _

/-- The values of a shard's command line look like no flag as soon as the unchecked ones do not. -/
theorem forall_childSettings_iff {childId : UInt32} {o : Options} (ho : o.validate = .ok ()) :
    (∀ s ∈ childSettings childId o, ¬ LooksLikeFlag s.2) ↔
      ∀ t ∈ passedTexts o, ¬ LooksLikeFlag t := by
  obtain ⟨-, -, htor, hhost⟩ := Options.validate_eq_ok_iff.1 ho
  have hseed : ¬ LooksLikeFlag o.p2p.seed := by
    by_cases he : o.p2p.seed = ""
    · rw [he]
      exact not_looksLikeFlag_empty
    · obtain ⟨bytes, hbytes⟩ := htor (by simpa [PeerOptions.torEnabled] using he)
      rw [PeerOptions.seedBytes] at hbytes
      split at hbytes
      · cases hbytes
      · next hdecode => exact Hex.not_looksLikeFlag hdecode
  have hhostname : ¬ LooksLikeFlag o.p2p.hostname := by
    rw [PeerOptions.host] at hhost
    split at hhost
    · next he =>
        rw [he]
        exact not_looksLikeFlag_empty
    · exact IpAddress.not_looksLikeFlag hhost
  have hfilter : (∀ s ∈ (optionalSettings o).filter (·.2 ≠ ""), ¬ LooksLikeFlag s.2) ↔
      ∀ s ∈ optionalSettings o, ¬ LooksLikeFlag s.2 := by
    constructor
    · intro h s hs
      by_cases he : s.2 = ""
      · rw [he]
        exact not_looksLikeFlag_empty
      · exact h s (List.mem_filter.2 ⟨hs, by simpa using he⟩)
    · intro h s hs
      exact h s (List.mem_filter.1 hs).1
  rw [childSettings, List.forall_mem_append, hfilter]
  simp only [requiredSettings, optionalSettings, passedTexts, List.forall_mem_cons,
    not_looksLikeFlag_decimalText, hseed, hhostname, not_false_eq_true, true_and, and_true,
    List.not_mem_nil, false_implies, implies_true, and_assoc]

/-- The line of a shard is read exactly if none of its values looks like a flag. -/
theorem exists_read_iff (childId : UInt32) (o : Options) :
    (∃ a, Arguments.read (childArguments childId o) = .ok a) ↔
      ∀ s ∈ childSettings childId o, ¬ LooksLikeFlag s.2 := by
  have hstart : Arguments.StartsWithFlag (switchArguments o) := by
    unfold switchArguments
    split
    · exact Or.inr ⟨_, _, rfl⟩
    · exact Or.inl rfl
  rw [Arguments.read, childArguments_eq]
  constructor
  · rintro ⟨a, ha⟩
    exact Arguments.not_looksLikeFlag_of_scan (fun s hs => valued_of_mem_childSettings hs) hstart ha
  · intro hvalues
    have hkeys := nodup_keys_childSettings childId o
    have hchild : (Keyed.keys ([] ++ childSettings childId o)).Nodup :=
      hkeys.sublist (List.Sublist.map _ (List.sublist_append_left _ _))
    obtain ⟨a, hholds, hscan⟩ := Arguments.holds_nil.exists_scan hchild
      (fun s hs => ⟨hvalues s hs, reads_of_mem_childSettings hs⟩) hstart
    rw [hscan]
    unfold switchArguments
    split
    · next hon =>
        have hnew : Keyed.get? .dhtServer (childSettings childId o) = none := by
          rw [← Option.not_isSome_iff_eq_none, Keyed.get?_isSome_iff_mem]
          intro hmem
          obtain ⟨s, hs, hf⟩ := List.mem_map.1 hmem
          exact valued_of_mem_childSettings hs hf
        have hreads : Flag.dhtServer.Reads "true" := rfl
        obtain ⟨b, hb, -⟩ := hholds.exists_accept hnew hreads
        exact ⟨b, by rw [Arguments.scan_word]; exact hb⟩
    · exact ⟨a, rfl⟩

/-- What was read from a shard's line passes the checks that its parent passed. -/
theorem exists_options_of_read {childId : UInt32} {o : Options} (ho : o.Complete)
    (hvalidate : o.validate = .ok ()) {a : Arguments}
    (ha : Arguments.read (childArguments childId o) = .ok a) (files : FileTree) :
    ∃ o', a.toOptions files = .ok o' := by
  have hholds := holds_of_read ha
  have hconfig : a.text .config = "" := hholds.text_eq_empty (get?_of_optional rfl (by simp))
  have hresult : a.switched (Options.merge {} a.layer) = { o with
      logFile := ({} : Options).logFile
      bus := { o.bus with childId, childProcessCount := 0 } } := by
    rw [layer_of_holds hholds, merge_inherited ho]
    exact switched_of_holds hholds rfl
  refine ⟨_, bind_eq_ok.2 ⟨{}, ?_, bind_eq_ok.2 ⟨(), ?_, rfl⟩⟩⟩
  · rw [hconfig]
    rfl
  · rw [hresult]
    refine (Options.validate_congr ?_).1 hvalidate
    rfl

/-- Whatever options a process runs with, its shards accept their command lines exactly if none of
the texts that it passes on unchecked looks like a flag. A line that is refused is refused as a
command line, and then the line of every other shard is refused, too. -/
theorem childArguments_accepted_iff {line : List String} {files : FileTree} {o : Options}
    (ho : optionsOfCommandLine line files = .ok o) (childId : UInt32) (files' : FileTree) :
    ((∃ o', optionsOfCommandLine (childArguments childId o) files' = .ok o') ↔
      ∀ t ∈ passedTexts o, ¬ LooksLikeFlag t) ∧
    ∀ e, optionsOfCommandLine (childArguments childId o) files' = .error e →
      (∃ cause, e = .usage cause) ∧ ∃ t ∈ passedTexts o, LooksLikeFlag t := by
  have hvalidate := validate_of_commandLine ho
  have hcomplete := complete_of_commandLine ho
  have hread := (exists_read_iff childId o).trans (forall_childSettings_iff hvalidate)
  have haccepted : ∀ a, Arguments.read (childArguments childId o) = .ok a →
      ∃ o', optionsOfCommandLine (childArguments childId o) files' = .ok o' := by
    intro a ha
    obtain ⟨o', ho'⟩ := exists_options_of_read hcomplete hvalidate ha files'
    exact ⟨o', bind_eq_ok.2 ⟨a, mapError_eq_ok.2 ha, mapError_eq_ok.2 ho'⟩⟩
  constructor
  · rw [← hread]
    constructor
    · rintro ⟨o', ho'⟩
      obtain ⟨a, ha, -⟩ := optionsOfCommandLine_eq_ok ho'
      exact ⟨a, ha⟩
    · rintro ⟨a, ha⟩
      exact haccepted a ha
  · intro e he
    cases ha : Arguments.read (childArguments childId o) with
    | ok a =>
        obtain ⟨o', ho'⟩ := haccepted a ha
        rw [ho'] at he
        cases he
    | error cause =>
        constructor
        · rw [optionsOfCommandLine, ha] at he
          cases he
          exact ⟨cause, rfl⟩
        · apply Decidable.byContradiction
          intro hnone
          obtain ⟨a, ha'⟩ := hread.2 fun t ht hflag => hnone ⟨t, ht, hflag⟩
          rw [ha] at ha'
          cases ha'

/-- A process whose room is called `-x` comes up, and each of its shards refuses its line. -/
theorem dashedRoom_refused :
    ∃ o, optionsOfCommandLine ["--p2pRoom=-x", "--ipcChildProcessCount=3"] .empty = .ok o ∧
      ∀ childId files, ∃ cause,
        optionsOfCommandLine (childArguments childId o) files = .error (.usage cause) := by
  have ho : optionsOfCommandLine ["--p2pRoom=-x", "--ipcChildProcessCount=3"] .empty =
      .ok { p2p := { room := "-x" }, bus := { childProcessCount := 3 } } :=
    eq_ok_of_toOption (by decide +kernel)
  refine ⟨_, ho, fun childId files => ?_⟩
  obtain ⟨haccepted, hrefused⟩ := childArguments_accepted_iff ho childId files
  cases hchild : optionsOfCommandLine (childArguments childId
      { p2p := { room := "-x" }, bus := { childProcessCount := 3 } }) files with
  | ok o' => exact absurd (by decide) (haccepted.1 ⟨o', hchild⟩ "-x" (by decide))
  | error e =>
      obtain ⟨⟨cause, rfl⟩, -⟩ := hrefused e hchild
      exact ⟨cause, rfl⟩

end GossipDirectory
