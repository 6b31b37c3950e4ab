import GossipDirectory.Proofs.Options.Layering

/-!
# What loading a file changes

A file is meant to change only the settings that it gives. But a file that is read fills its gaps
with the defaults, and these go on top of the current options like anything that the file gives. So
a gap resets a setting to its default, unless the default is blank. Only options that still have all
these defaults can take every file.
-/

namespace GossipDirectory

namespace Flag

theorem getD_given?_eq_iff (f : Flag) (x current : f.Value) :
    (f.given? x).getD current = current ↔ x = f.empty ∨ current = x := by
  unfold given?
  by_cases hx : x = f.empty
  · simp [hx]
  · simp [hx, eq_comm]

end Flag

namespace Options

/-- Options are as a file is meant to leave them: a setting whose key is missing, or has a blank
value, is the current one, and every other setting is that of its key. -/
def OverridesGiven (root : Yaml.Node) (current loaded : Options) : Prop :=
  ∀ f, f ≠ .text .config → ∃ x?, Supplies f.read (root.at? f.key) x? ∧
    loaded.setting f = (x?.bind f.given?).getD (current.setting f)

/-- A setting stays as it is when its default is put on top of it. -/
def SurvivesGap (current : Options) (f : Flag) : Prop :=
  setting {} f = f.empty ∨ current.setting f = setting {} f

variable {files : FileTree} {path : String} {root : Yaml.Node} {current loaded : Options}

/-- A path leads to options to put on top exactly if it names a document that reads as options. -/
theorem load_succeeds_iff (hpath : path ≠ "") :
    (∃ loaded, current.load files path = .ok loaded) ↔
      ∃ root file, Document files path (some root) ∧ ofNode root = .ok file := by
  constructor
  · rintro ⟨loaded, h⟩
    obtain ⟨hempty, -⟩ | ⟨text, root, file, -, htext, hroot, hfile, -⟩ := load_eq_ok h
    · exact absurd hempty hpath
    · exact ⟨root, file, .read text root hpath htext hroot, hfile⟩
  · rintro ⟨root, file, ⟨⟩ | ⟨text, _, -, htext, hroot⟩, hfile⟩
    refine ⟨current.merge file, ?_⟩
    have hparse : parse text = .ok file := by
      rw [parse, hroot]
      exact mapError_eq_ok.2 hfile
    rw [load, if_neg hpath, htext]
    exact map_eq_ok.2 ⟨file, hparse, rfl⟩

/-- Whatever is wrong with a file, the failure speaks of the configuration. -/
theorem config_of_load_eq_error {failure : Failure}
    (h : current.load files path = .error failure) : ∃ cause, failure = .config cause := by
  unfold load at h
  split at h
  case isTrue => cases h
  case isFalse =>
    split at h
    case h_1 => exact ⟨_, (Except.error.inj h).symm⟩
    case h_2 text _ =>
      unfold parse at h
      split at h
      case h_1 => exact ⟨_, (Except.error.inj h).symm⟩
      case h_2 root _ =>
        cases hfile : ofNode root with
        | error cause =>
            rw [hfile] at h
            exact ⟨cause, (Except.error.inj h).symm⟩
        | ok file =>
            rw [hfile] at h
            cases h

/-- A loaded setting comes from its key, or else from the default, and is the current one where that
is blank. -/
theorem setting_loaded (hroot : Document files path (some root))
    (h : current.load files path = .ok loaded) {f : Flag} (hf : f ≠ .text .config) :
    ∃ x?, Supplies f.read (root.at? f.key) x? ∧
      loaded.setting f = (f.given? (x?.getD (setting {} f))).getD (current.setting f) := by
  obtain ⟨hempty, -⟩ | ⟨text, read, file, hpath, htext, hread, hfile, rfl⟩ := load_eq_ok h
  · cases hroot with
    | read _ _ hpath => exact absurd hempty hpath
  · obtain rfl : root = read :=
      Option.some.inj (hroot.unique (.read text read hpath htext hread))
    obtain ⟨x?, hx?, hsetting⟩ := setting_ofNode hfile hf
    refine ⟨x?, hx?, ?_⟩
    rw [setting_merge, hsetting, Flag.merge_eq_getD]

/-- A file works as it is meant to exactly if all settings that it leaves out survive that. -/
theorem overridesGiven_iff (hroot : Document files path (some root))
    (h : current.load files path = .ok loaded) :
    OverridesGiven root current loaded ↔
      ∀ f, f ≠ .text .config → root.at? f.key = none → current.SurvivesGap f := by
  refine forall₂_congr fun f hf => ?_
  obtain ⟨x?, hx?, hsetting⟩ := setting_loaded hroot h hf
  have hmeant : (∃ y?, Supplies f.read (root.at? f.key) y? ∧
      loaded.setting f = (y?.bind f.given?).getD (current.setting f)) ↔
        loaded.setting f = (x?.bind f.given?).getD (current.setting f) := by
    constructor
    · rintro ⟨y?, hy?, hy⟩
      rwa [hy?.unique hx?] at hy
    · exact fun hx => ⟨x?, hx?, hx⟩
  rw [hmeant, hsetting]
  generalize root.at? f.key = entry at hx?
  cases hx? with
  | missing =>
      rw [forall_prop_of_true rfl]
      exact f.getD_given?_eq_iff _ _
  | given v x _ => exact iff_of_true rfl nofun

/-- A file that gives nothing. -/
def emptyFile : FileTree :=
  FileTree.empty.place "node.yaml" []

theorem document_emptyFile : Document emptyFile "node.yaml" (some .missing) :=
  .read "" .missing (by decide) (eq_ok_of_toOption (by decide +kernel)) rfl

theorem at?_missing {f : Flag} (hf : f ≠ .text .config) : Yaml.Node.missing.at? f.key = none := by
  cases f with
  | text f =>
      cases f with
      | config => exact absurd rfl hf
      | _ => rfl
  | port f => cases f <;> rfl
  | id f => cases f <;> rfl
  | size f => cases f <;> rfl
  | dhtServer => rfl

/-- Loading succeeds exactly if the path names a document that reads as options. A loaded setting is
that of its key, and the current one where the key has a blank value; where the key is missing, it
is the default, and the current one only if the default is blank. So a file leaves alone what it
does not give exactly if everything that it leaves out has its default already or has none, and all
files do so exactly if this holds of all current settings. -/
theorem load_overrides_given_iff (current : Options) :
    (∀ files path, path ≠ "" →
      ((∃ loaded, current.load files path = .ok loaded) ↔
        ∃ root file, Document files path (some root) ∧ ofNode root = .ok file) ∧
      ∀ failure, current.load files path = .error failure → ∃ cause, failure = .config cause) ∧
    (∀ files path root loaded, Document files path (some root) →
      current.load files path = .ok loaded →
        (∀ f, f ≠ .text .config → ∃ x?, Supplies f.read (root.at? f.key) x? ∧
          loaded.setting f = (f.given? (x?.getD (setting {} f))).getD (current.setting f)) ∧
        (OverridesGiven root current loaded ↔
          ∀ f, f ≠ .text .config → root.at? f.key = none → current.SurvivesGap f)) ∧
    ((∀ files path root loaded, Document files path (some root) →
        current.load files path = .ok loaded → OverridesGiven root current loaded) ↔
      ∀ f, f ≠ .text .config → current.SurvivesGap f) := by
  refine ⟨fun files path hpath => ⟨load_succeeds_iff hpath, fun _ => config_of_load_eq_error⟩,
    fun files path root loaded hroot h => ⟨fun f hf => setting_loaded hroot h hf,
      overridesGiven_iff hroot h⟩, ?_, ?_⟩
  · intro hall f hf
    have hsucceeds : ∃ loaded, current.load emptyFile "node.yaml" = .ok loaded :=
      (load_succeeds_iff (by decide)).2 ⟨.missing, {}, document_emptyFile, rfl⟩
    obtain ⟨loaded, h⟩ := hsucceeds
    have hmeant := hall _ _ _ loaded document_emptyFile h
    exact (overridesGiven_iff document_emptyFile h).1 hmeant f hf (at?_missing hf)
  · intro hall files path root loaded hroot h
    exact (overridesGiven_iff hroot h).2 fun f hf _ => hall f hf

/-- A file that gives the log level only. -/
def terseFile : FileTree :=
  FileTree.empty.place "node.yaml" (Utf8.encode "loglevel: debug")

/-- Options with a port and a room of their own. -/
def settled : Options where
  p2p := { listenPort := 9000, room := "own-room", hostname := "::1" }

/-- The port and the room are lost to the file; the host name, which has no default, is not. To the
defaults no file does such a thing. -/
theorem settled_reset :
    settled.load terseFile "node.yaml" = .ok { logLevel := "debug", p2p := { hostname := "::1" } } ∧
      (∃ root, Document terseFile "node.yaml" (some root) ∧ ¬ OverridesGiven root settled
        { logLevel := "debug", p2p := { hostname := "::1" } }) ∧
      ∀ files path root loaded, Document files path (some root) →
        Options.load {} files path = .ok loaded → OverridesGiven root {} loaded := by
  have hload : settled.load terseFile "node.yaml" =
      .ok { logLevel := "debug", p2p := { hostname := "::1" } } :=
    eq_ok_of_toOption (by decide +kernel)
  have hport : ((Yaml.parse "loglevel: debug").toOption.map fun root =>
      (root.at? ["p2p", "listenport"]).isNone) = some true := by decide +kernel
  obtain ⟨root, hparse, hmissing⟩ := Option.map_eq_some_iff.1 hport
  have hroot : Document terseFile "node.yaml" (some root) :=
    .read "loglevel: debug" root (by decide) (eq_ok_of_toOption (by decide +kernel))
      (eq_ok_of_toOption hparse)
  obtain ⟨-, hsettings, -⟩ := load_overrides_given_iff settled
  obtain ⟨-, -, hdefaults⟩ := load_overrides_given_iff {}
  refine ⟨hload, ⟨root, hroot, ?_⟩, hdefaults.2 fun f _ => .inr rfl⟩
  rw [(hsettings _ _ _ _ hroot hload).2]
  intro hall
  have hport' : settled.SurvivesGap (.port .listenPort) := by
    apply hall
    · exact Flag.noConfusion
    · exact Option.isNone_iff_eq_none.1 hmissing
  rcases hport' with hblank | hdefault
  · exact absurd hblank (by decide)
  · exact absurd hdefault (by decide)

end Options

end GossipDirectory
