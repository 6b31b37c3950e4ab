import GossipDirectory.Proofs.Options.Complete
import GossipDirectory.Proofs.Options.FileSettings

/-!
# Which value a setting has

A setting has the value of its flag, or else the value of its key in the file, or else its default;
empty texts and zeros count as not given. The server switch follows its flag even when that turns it
off. No setting depends on the flag or the key of another one.

## Implementation notes

A layer cannot tell a missing value from a blank one, and a file fills its gaps with the defaults.
Both lose nothing: a blank value changes no setting, and a default on top of a default is the
default.
-/

namespace GossipDirectory

/-- The value of a flag, or else the value of a file, or else a default. A blank value counts as
none. -/
def chosen {α : Type} [DecidableEq α] (blank? flag? file? : Option α) (default : α) : α :=
  ((flag?.filter (some · ≠ blank?)).or (file?.filter (some · ≠ blank?))).getD default

section Chosen

variable {α : Type} [DecidableEq α]

theorem chosen_none (flag? file? : Option α) (default : α) :
    chosen none flag? file? default = flag?.getD (file?.getD default) := by
  cases flag? with
  | none => cases file? <;> simp [chosen, Option.filter]
  | some x => simp [chosen, Option.filter]

/-- Two layers that do not count blank values choose between a flag and a file, where a missing flag
is a blank one and a missing value of the file is the default. -/
theorem layers_eq_chosen {blank : α} {merge : α → α → α}
    (h : ∀ below layer, merge below layer = if layer = blank then below else layer)
    (flag? file? : Option α) (default : α) :
    merge (merge default (file?.getD default)) (flag?.getD blank) =
      chosen (some blank) flag? file? default := by
  have hfile : merge default (file?.getD default) =
      (file?.filter (some · ≠ some blank)).getD default := by
    rw [h]
    cases file? with
    | none => simp
    | some x => by_cases hx : x = blank <;> simp [Option.filter, hx]
  rw [hfile, h]
  cases flag? with
  | none => simp [chosen]
  | some x => by_cases hx : x = blank <;> simp [chosen, Option.filter, hx]

end Chosen

namespace Flag

instance (f : Flag) : DecidableEq f.Value :=
  match f with
  | .text _ => inferInstanceAs (DecidableEq String)
  | .port _ => inferInstanceAs (DecidableEq UInt16)
  | .id _ => inferInstanceAs (DecidableEq UInt32)
  | .size _ => inferInstanceAs (DecidableEq UInt64)
  | .dhtServer => inferInstanceAs (DecidableEq Bool)

/-- The value that counts as none. The server switch has no such value. -/
def blank? : (f : Flag) → Option f.Value
  | .text _ => some ""
  | .port _ => some 0
  | .id _ => some 0
  | .size _ => some 0
  | .dhtServer => none

/-- What a layer has for a setting that it does not give. -/
def empty : (f : Flag) → f.Value
  | .text _ => ""
  | .port _ => 0
  | .id _ => 0
  | .size _ => 0
  | .dhtServer => false

/-- A setting under a layer. -/
def merge : (f : Flag) → (below layer : f.Value) → f.Value
  | .text _ => overText
  | .port _ => overNumber
  | .id _ => overNumber
  | .size _ => overNumber
  | .dhtServer => or

end Flag

namespace Arguments

/-- The value given for a flag. -/
def given (a : Arguments) : (f : Flag) → Option f.Value
  | .text f => Keyed.get? f a.texts
  | .port f => Keyed.get? f a.ports
  | .id f => Keyed.get? f a.ids
  | .size f => Keyed.get? f a.sizes
  | .dhtServer => a.dhtServer

end Arguments

namespace Options

/-- The document in the file of a path. An empty path stands for no file. -/
inductive Document (files : FileTree) (path : String) : Option Yaml.Node → Prop
  | none : path = "" → Document files path none
  | read (text : String) (root : Yaml.Node) : path ≠ "" → files.readText path = .ok text →
      Yaml.parse text = .ok root → Document files path (some root)

end Options

namespace Flag

theorem merge_self (f : Flag) (x : f.Value) : f.merge x x = x := by
  cases f with
  | text f => exact ite_self x
  | port f | id f | size f => exact ite_self x
  | dhtServer => exact Bool.or_self x

theorem merge_merge {f : Flag} (hf : f ≠ .dhtServer) (flag? file? : Option f.Value)
    (default : f.Value) :
    f.merge (f.merge default (file?.getD default)) (flag?.getD f.empty) =
      chosen f.blank? flag? file? default := by
  cases f with
  | text f => exact layers_eq_chosen (fun _ _ => rfl) flag? file? default
  | port f | id f | size f => exact layers_eq_chosen (fun _ _ => rfl) flag? file? default
  | dhtServer => exact absurd rfl hf

/-- A layer can only turn the switch on, so its flag is looked at once more. -/
theorem merge_dhtServer (flag? file? : Option Bool) :
    flag?.getD (dhtServer.merge (dhtServer.merge false (file?.getD false)) (flag?.getD false)) =
      chosen dhtServer.blank? flag? file? false := by
  rw [blank?, chosen_none]
  cases flag? with
  | none =>
      calc
        ((false || file?.getD false) || false) = (false || file?.getD false) := Bool.or_false _
        _ = file?.getD false := Bool.false_or _
  | some on => rfl

end Flag

namespace Options

theorem setting_merge (below layer : Options) (f : Flag) :
    (below.merge layer).setting f = f.merge (below.setting f) (layer.setting f) := by
  cases f with
  | text f => cases f <;> rfl
  | port f => cases f <;> rfl
  | id f => cases f <;> rfl
  | size f => cases f <;> rfl
  | dhtServer => rfl

theorem setting_layer (a : Arguments) {f : Flag} (hf : f ≠ .text .config) :
    a.layer.setting f = (a.given f).getD f.empty := by
  cases f with
  | text f =>
      cases f with
      | config => exact absurd rfl hf
      | _ => rfl
  | port f => cases f <;> rfl
  | id f => cases f <;> rfl
  | size f => cases f <;> rfl
  | dhtServer => rfl

theorem setting_switched (a : Arguments) (o : Options) {f : Flag} (hf : f ≠ .dhtServer) :
    (a.switched o).setting f = o.setting f := by
  unfold Arguments.switched
  split
  case h_1 =>
    cases f with
    | text f => cases f <;> rfl
    | port f => cases f <;> rfl
    | id f => cases f <;> rfl
    | size f => cases f <;> rfl
    | dhtServer => exact absurd rfl hf
  case h_2 => rfl

theorem dhtServer_switched (a : Arguments) (o : Options) :
    (a.switched o).setting .dhtServer = a.dhtServer.getD (o.setting .dhtServer) := by
  unfold Arguments.switched
  split
  case h_1 on hon => rw [hon]; rfl
  case h_2 hnone => rw [hnone]; rfl

/-! ## All layers -/

section Load

variable {files : FileTree} {path : String} {base : Options}

theorem Document.unique {document document' : Option Yaml.Node}
    (h : Document files path document) (h' : Document files path document') :
    document = document' := by
  cases h with
  | none hpath =>
      cases h' with
      | none => rfl
      | read _ _ hpath' => exact absurd hpath hpath'
  | read text root hpath htext hroot =>
      cases h' with
      | none hpath' => exact absurd hpath' hpath
      | read text' root' _ htext' hroot' =>
          obtain rfl : text = text' := Except.ok.inj (htext.symm.trans htext')
          rw [Except.ok.inj (hroot.symm.trans hroot')]

/-- What is loaded on top of the defaults comes from the document, one setting at a time. -/
theorem setting_load (h : Options.load {} files path = .ok base) :
    ∃ document, Document files path document ∧ ∀ f, f ≠ .text .config →
      ∃ x?, Supplies f.read (document.bind (·.at? f.key)) x? ∧
        base.setting f = f.merge (setting {} f) (x?.getD (setting {} f)) := by
  obtain ⟨hpath, rfl⟩ | ⟨text, root, file, hpath, htext, hroot, hfile, rfl⟩ := load_eq_ok h
  · refine ⟨none, .none hpath, fun f _ => ⟨none, .missing, ?_⟩⟩
    exact (f.merge_self _).symm
  · refine ⟨some root, .read text root hpath htext hroot, fun f hf => ?_⟩
    obtain ⟨x?, hx?, hsetting⟩ := setting_ofNode hfile hf
    refine ⟨x?, hx?, ?_⟩
    rw [setting_merge, hsetting]

end Load

/-- Each setting has the value of its flag, of its key, or its default, in this order. -/
theorem setting_toOptions {a : Arguments} {files : FileTree} {o : Options}
    (h : a.toOptions files = .ok o) :
    ∃ document, Document files (a.text .config) document ∧ ∀ f, f ≠ .text .config →
      ∃ x?, Supplies f.read (document.bind (·.at? f.key)) x? ∧
        o.setting f = chosen f.blank? (a.given f) x? (setting {} f) := by
  obtain ⟨base, hbase, rfl⟩ := Arguments.toOptions_eq_ok h
  obtain ⟨document, hdocument, hsettings⟩ := setting_load hbase
  refine ⟨document, hdocument, fun f hf => ?_⟩
  obtain ⟨x?, hx?, hsetting⟩ := hsettings f hf
  refine ⟨x?, hx?, ?_⟩
  by_cases hswitch : f = .dhtServer
  · subst hswitch
    rw [dhtServer_switched, setting_merge, hsetting, setting_layer a hf]
    exact Flag.merge_dhtServer a.dhtServer x?
  · rw [setting_switched a _ hswitch, setting_merge, hsetting, setting_layer a hf]
    exact Flag.merge_merge hswitch (a.given f) x? (setting {} f)

section Settings

variable {a a' : Arguments} {files files' : FileTree} {o o' : Options}
  {document document' : Option Yaml.Node}

/-- A setting depends on its own flag and its own key only. -/
theorem setting_congr (h : a.toOptions files = .ok o) (h' : a'.toOptions files' = .ok o')
    (hdocument : Document files (a.text .config) document)
    (hdocument' : Document files' (a'.text .config) document') {f : Flag}
    (hf : f ≠ .text .config) (hflag : a'.given f = a.given f)
    (hkey : document'.bind (·.at? f.key) = document.bind (·.at? f.key)) :
    o'.setting f = o.setting f := by
  obtain ⟨found, hfound, hsettings⟩ := setting_toOptions h
  obtain ⟨found', hfound', hsettings'⟩ := setting_toOptions h'
  obtain rfl : found = document := hfound.unique hdocument
  obtain rfl : found' = document' := hfound'.unique hdocument'
  obtain ⟨x?, hx?, hsetting⟩ := hsettings f hf
  obtain ⟨y?, hy?, hsetting'⟩ := hsettings' f hf
  rw [hkey] at hy?
  rw [hsetting, hsetting', hflag, hy?.unique hx?]

/-- Options are their settings. -/
theorem ext_setting (h : ∀ f, f ≠ .text .config → o'.setting f = o.setting f) : o' = o := by
  obtain ⟨log, logFile, p, m, b⟩ := o
  obtain ⟨log', logFile', p', m', b'⟩ := o'
  have hp : p' = p := by
    cases p
    cases p'
    simp only [PeerOptions.mk.injEq]
    exact ⟨h (.text .seed) nofun, h (.text .bootstrap) nofun, h (.text .hostname) nofun,
      h (.port .listenPort) nofun, h (.size .lowWater) nofun, h (.size .highWater) nofun,
      h (.text .room) nofun, h .dhtServer nofun, h (.text .peerstoreFile) nofun,
      h (.text .socksProxy) nofun⟩
  have hm : m' = m := by
    cases m
    cases m'
    simp only [MeshOptions.mk.injEq]
    exact ⟨h (.size .d) nofun, h (.size .dlo) nofun, h (.size .dhi) nofun, h (.size .dout) nofun,
      h (.size .dscore) nofun, h (.size .dlazy) nofun, h (.size .prunePeers) nofun,
      h (.size .limit) nofun⟩
  have hb : b' = b := by
    cases b
    cases b'
    simp only [BusOptions.mk.injEq]
    exact ⟨h (.text .subject) nofun, h (.id .childId) nofun, h (.id .childProcessCount) nofun,
      h (.text .natsHost) nofun, h (.port .natsPort) nofun⟩
  simp only [Options.mk.injEq]
  exact ⟨h (.text .log) nofun, h (.text .logFile) nofun, hp, hm, hb⟩

/-- Every setting has the value of its flag, or else of its key in the file, or else its default;
and this flag and this key are all that it depends on. -/
theorem settings_by_precedence (h : a.toOptions files = .ok o) :
    ∃ document, Document files (a.text .config) document ∧
      ∀ f, f ≠ .text .config →
        (∃ x?, Supplies f.read (document.bind (·.at? f.key)) x? ∧
          o.setting f = chosen f.blank? (a.given f) x? (setting {} f)) ∧
        ∀ a' files' o' document', Arguments.toOptions a' files' = .ok o' →
          Document files' (a'.text .config) document' → a'.given f = a.given f →
            document'.bind (·.at? f.key) = document.bind (·.at? f.key) →
              o'.setting f = o.setting f := by
  obtain ⟨document, hdocument, hsettings⟩ := setting_toOptions h
  refine ⟨document, hdocument, fun f hf => ⟨hsettings f hf, ?_⟩⟩
  intro a' files' o' document' h' hdocument' hflag hkey
  exact setting_congr h h' hdocument hdocument' hf hflag hkey

/-- A file that turns the switch on and leaves most settings out. -/
def halfFilled : FileTree :=
  FileTree.empty.place "node.yaml" (Utf8.encode
    "p2p:\n  room: from-file\n  lowwater: 4\n  dhtservermode: true\ngossip:\n  d: 0")

/-- Flags that name another room and turn the switch off again. -/
def correcting : Arguments where
  texts := [(.config, "node.yaml"), (.room, "from-flag"), (.log, "")]
  sizes := [(.highWater, 0)]
  dhtServer := some false

/-- The options that they resolve to. -/
def corrected : Options where
  p2p := { room := "from-flag", lowWater := 4 }

/-- The file has supplied the low watermark; its room and its switch are overridden. -/
theorem halfFilled_corrected :
    correcting.toOptions halfFilled = .ok corrected ∧
      ∃ document, Document halfFilled "node.yaml" document ∧
        Supplies sizeOf (document.bind (·.at? ["p2p", "lowwater"])) (some 4) := by
  have hok : correcting.toOptions halfFilled = .ok corrected :=
    eq_ok_of_toOption (by decide +kernel)
  obtain ⟨document, hdocument, hsettings⟩ := settings_by_precedence hok
  refine ⟨hok, document, hdocument, ?_⟩
  obtain ⟨⟨x?, hx?, hlow⟩, -⟩ := hsettings (.size .lowWater) nofun
  -- Neither the flag nor the default is 4, and a blank value would have left the default.
  have hfour : (4 : UInt64) = chosen (some 0) none x? 16 := hlow
  cases x? with
  | none => exact absurd hfour (by decide)
  | some x =>
      by_cases hzero : x = 0
      · subst hzero
        exact absurd hfour (by decide)
      · obtain rfl : 4 = x := by simpa [chosen, Option.filter, hzero] using hfour
        exact hx?

end Settings

end Options

end GossipDirectory
