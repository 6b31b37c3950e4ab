import GossipDirectory.CommandLine.Resolve
import GossipDirectory.Proofs.Collection.Outcome

/-!
# Complete options

Layers may be combined in any grouping. Options are complete when the defaults add nothing to them;
whatever a file and a command line give, the options that they resolve to are complete.
-/

namespace GossipDirectory

theorem overText_assoc (a b c : String) :
    overText a (overText b c) = overText (overText a b) c := by
  unfold overText
  by_cases hc : c = ""
  · rw [if_pos hc, if_pos hc]
  · rw [if_neg hc, if_neg hc, if_neg hc]

theorem overNumber_assoc {α : Type} [DecidableEq α] [OfNat α 0] (a b c : α) :
    overNumber a (overNumber b c) = overNumber (overNumber a b) c := by
  unfold overNumber
  by_cases hc : c = 0
  · rw [if_pos hc, if_pos hc]
  · rw [if_neg hc, if_neg hc, if_neg hc]

@[simp] theorem overNumber_zero {α : Type} [DecidableEq α] [OfNat α 0] (layer : α) :
    overNumber 0 layer = layer := by
  unfold overNumber
  split
  case isTrue h => exact h.symm
  case isFalse => rfl

theorem PeerOptions.merge_assoc (a b c : PeerOptions) :
    a.merge (b.merge c) = (a.merge b).merge c := by
  simp only [merge, overText_assoc, overNumber_assoc, Bool.or_assoc]

theorem MeshOptions.merge_assoc (a b c : MeshOptions) :
    a.merge (b.merge c) = (a.merge b).merge c := by
  simp only [merge, overNumber_assoc]

theorem BusOptions.merge_assoc (a b c : BusOptions) :
    a.merge (b.merge c) = (a.merge b).merge c := by
  simp only [merge, overText_assoc, overNumber_assoc]

namespace Options

theorem merge_assoc (a b c : Options) : a.merge (b.merge c) = (a.merge b).merge c := by
  simp only [merge, overText_assoc, PeerOptions.merge_assoc, MeshOptions.merge_assoc,
    BusOptions.merge_assoc]

/-- The defaults add nothing: every setting with a default other than empty or zero is given. -/
def Complete (o : Options) : Prop :=
  Options.merge {} o = o

theorem complete_default : Complete {} := by
  rfl

theorem Complete.merge {below : Options} (h : below.Complete) (layer : Options) :
    (below.merge layer).Complete := by
  calc
    Options.merge {} (below.merge layer) = (Options.merge {} below).merge layer :=
      merge_assoc {} below layer
    _ = below.merge layer := by rw [h]

/-- Without a path nothing is read; otherwise a document is read and put on top. -/
theorem load_eq_ok {o o' : Options} {files : FileTree} {path : String}
    (h : o.load files path = .ok o') :
    path = "" ∧ o' = o ∨
      ∃ text root file, path ≠ "" ∧ files.readText path = .ok text ∧
        Yaml.parse text = .ok root ∧ ofNode root = .ok file ∧ o' = o.merge file := by
  unfold Options.load at h
  split at h
  case isTrue hpath =>
    cases h
    exact .inl ⟨hpath, rfl⟩
  case isFalse hpath =>
    split at h
    case h_1 => cases h
    case h_2 text htext =>
      obtain ⟨file, hfile, rfl⟩ := map_eq_ok.1 h
      unfold parse at hfile
      split at hfile
      case h_1 => cases hfile
      case h_2 root hroot =>
        exact .inr ⟨text, root, file, hpath, htext, hroot, mapError_eq_ok.1 hfile, rfl⟩

theorem Complete.load {o o' : Options} (h : o.Complete) {files : FileTree} {path : String}
    (ho : o.load files path = .ok o') : o'.Complete := by
  obtain ⟨-, rfl⟩ | ⟨-, -, file, -, -, -, -, rfl⟩ := load_eq_ok ho
  · exact h
  · exact h.merge file

end Options

namespace Arguments

theorem complete_switched {o : Options} (h : o.Complete) (a : Arguments) :
    (a.switched o).Complete := by
  unfold switched
  split
  case h_1 on _ =>
    -- The default of the switch is off, and the switch is in no other setting's way.
    have hpeer : PeerOptions.merge {} o.p2p = o.p2p := congrArg Options.p2p h
    have hswitch : PeerOptions.merge {} { o.p2p with dhtServerMode := on } =
        { PeerOptions.merge {} o.p2p with dhtServerMode := on } := rfl
    calc
      Options.merge {} { o with p2p := { o.p2p with dhtServerMode := on } } =
          { Options.merge {} o with
            p2p := PeerOptions.merge {} { o.p2p with dhtServerMode := on } } := rfl
      _ = { o with p2p := { o.p2p with dhtServerMode := on } } := by rw [h, hswitch, hpeer]
  case h_2 => exact h

/-- Flags resolve to the options that they give on top of the file, if these pass the check. -/
theorem toOptions_eq_ok_iff {a : Arguments} {files : FileTree} {o : Options} :
    a.toOptions files = .ok o ↔
      ∃ base, Options.load {} files (a.text .config) = .ok base ∧
        o = a.switched (base.merge a.layer) ∧ o.validate = .ok () := by
  constructor
  · intro h
    obtain ⟨base, hbase, h⟩ := bind_eq_ok.1 h
    obtain ⟨_, hvalidate, h⟩ := bind_eq_ok.1 h
    cases h
    exact ⟨base, hbase, rfl, hvalidate⟩
  · rintro ⟨base, hbase, rfl, hvalidate⟩
    exact bind_eq_ok.2 ⟨base, hbase, bind_eq_ok.2 ⟨(), hvalidate, rfl⟩⟩

theorem toOptions_eq_ok {a : Arguments} {files : FileTree} {o : Options}
    (h : a.toOptions files = .ok o) :
    ∃ base, Options.load {} files (a.text .config) = .ok base ∧
      o = a.switched (base.merge a.layer) := by
  obtain ⟨base, hbase, ho, -⟩ := toOptions_eq_ok_iff.1 h
  exact ⟨base, hbase, ho⟩

theorem validate_of_toOptions {a : Arguments} {files : FileTree} {o : Options}
    (h : a.toOptions files = .ok o) : o.validate = .ok () := by
  obtain ⟨-, -, -, hvalidate⟩ := toOptions_eq_ok_iff.1 h
  exact hvalidate

/-- Every process runs with complete options. -/
theorem complete_of_toOptions {a : Arguments} {files : FileTree} {o : Options}
    (h : a.toOptions files = .ok o) : o.Complete := by
  obtain ⟨base, hbase, rfl⟩ := toOptions_eq_ok h
  have hcomplete : base.Complete := Options.complete_default.load hbase
  exact complete_switched (hcomplete.merge a.layer) a

end Arguments

theorem optionsOfCommandLine_eq_ok {line : List String} {files : FileTree} {o : Options}
    (h : optionsOfCommandLine line files = .ok o) :
    ∃ a, Arguments.read line = .ok a ∧ a.toOptions files = .ok o := by
  obtain ⟨a, ha, h⟩ := bind_eq_ok.1 h
  refine ⟨a, mapError_eq_ok.1 ha, mapError_eq_ok.1 h⟩

theorem complete_of_commandLine {line : List String} {files : FileTree} {o : Options}
    (h : optionsOfCommandLine line files = .ok o) : o.Complete := by
  obtain ⟨a, -, ha⟩ := optionsOfCommandLine_eq_ok h
  exact Arguments.complete_of_toOptions ha

end GossipDirectory
