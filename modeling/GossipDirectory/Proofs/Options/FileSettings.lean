import GossipDirectory.CommandLine.Flag
import GossipDirectory.Options.File
import GossipDirectory.Proofs.Collection.Outcome

/-!
# What a file says about a setting

Every setting has a key of its own in a file. A file that is accepted gives a setting the value that
its key has, or else the default; nothing else in the file touches it.

## Implementation notes

A setter is described by what it does to one setting at a time: it reads the setting, or it keeps
it. A group of setters then reads a setting from the first entry of its name, because a second one
makes the file unacceptable.
-/

namespace GossipDirectory

namespace Yaml.Node

/-- The value of an entry, if that is its name. -/
def named? (name : String) : Node × Node → Option Node
  | (.scalar _ text, v) => if text = name then some v else none
  | _ => none

/-- The value of the first entry of a name. -/
def entry? (name : String) : Node → Option Node
  | .mapping entries => entries.findSome? (named? name)
  | _ => none

/-- The value that a key leads to, one name for each level. -/
def at? : List String → Node → Option Node
  | [], v => some v
  | name :: rest, v => (v.entry? name).bind (at? rest)

end Yaml.Node

namespace Options

/-- The port that a node holds. -/
def portOf (v : Yaml.Node) : Except ConfigError UInt16 :=
  (numberOf UInt16.size v).map UInt16.ofNat

/-- The id or count that a node holds. -/
def idOf (v : Yaml.Node) : Except ConfigError UInt32 :=
  (numberOf UInt32.size v).map UInt32.ofNat

/-- The size that a node holds. -/
def sizeOf (v : Yaml.Node) : Except ConfigError UInt64 :=
  (numberOf UInt64.size v).map UInt64.ofNat

end Options

namespace Flag

/-- The type of a setting. -/
@[reducible] def Value : Flag → Type
  | .text _ => String
  | .port _ => UInt16
  | .id _ => UInt32
  | .size _ => UInt64
  | .dhtServer => Bool

/-- The value of a setting that a node holds. -/
def read : (f : Flag) → Yaml.Node → Except ConfigError f.Value
  | .text _ => Options.textOf
  | .port _ => Options.portOf
  | .id _ => Options.idOf
  | .size _ => Options.sizeOf
  | .dhtServer => Options.switchOf

/-- The key of a setting in a file: the name of its group, if it has one, and its own. -/
def key : Flag → List String
  | .text .log => ["loglevel"]
  | .text .logFile => ["logfile"]
  | .text .config => []
  | .text .seed => ["p2p", "seed"]
  | .text .bootstrap => ["p2p", "bootstrap"]
  | .text .hostname => ["p2p", "hostname"]
  | .port .listenPort => ["p2p", "listenport"]
  | .size .lowWater => ["p2p", "lowwater"]
  | .size .highWater => ["p2p", "highwater"]
  | .text .room => ["p2p", "room"]
  | .dhtServer => ["p2p", "dhtservermode"]
  | .text .peerstoreFile => ["p2p", "peerstorefile"]
  | .text .socksProxy => ["p2p", "socksproxy"]
  | .size .d => ["gossip", "d"]
  | .size .dlo => ["gossip", "dlo"]
  | .size .dhi => ["gossip", "dhi"]
  | .size .dout => ["gossip", "dout"]
  | .size .dscore => ["gossip", "dscore"]
  | .size .dlazy => ["gossip", "dlazy"]
  | .size .prunePeers => ["gossip", "prunepeers"]
  | .size .limit => ["gossip", "limit"]
  | .text .subject => ["ipc", "subject"]
  | .id .childId => ["ipc", "childid"]
  | .id .childProcessCount => ["ipc", "childprocesscount"]
  | .text .natsHost => ["ipc", "natshost"]
  | .port .natsPort => ["ipc", "natsport"]

end Flag

namespace Options

/-- What reading the value of a key answers: nothing where the key is missing. -/
inductive Supplies {β : Type} (read : Yaml.Node → Except ConfigError β) :
    Option Yaml.Node → Option β → Prop
  | missing : Supplies read none none
  | given (v : Yaml.Node) (x : β) : read v = .ok x → Supplies read (some v) (some x)

theorem Supplies.unique {β : Type} {read : Yaml.Node → Except ConfigError β}
    {v? : Option Yaml.Node} {x? y? : Option β} (hx : Supplies read v? x?)
    (hy : Supplies read v? y?) : x? = y? := by
  cases hx with
  | missing =>
      cases hy with
      | missing => rfl
  | given v x hx =>
      cases hy with
      | given _ y hy => rw [Except.ok.inj (hx.symm.trans hy)]

/-! ## Setters -/

section Setters

variable {α β γ : Type} {x y : α} {v : Yaml.Node}

/-- A setter that reads a setting. -/
def Reads (set : Setter α) (read : Yaml.Node → Except ConfigError β) (get : α → β) : Prop :=
  ∀ x v y, set x v = .ok y → read v = .ok (get y)

/-- A setter that leaves a setting as it is. -/
def Keeps (set : Setter α) (get : α → β) : Prop :=
  ∀ x v y, set x v = .ok y → get y = get x

/-- A setter that puts what it has read and converted. -/
theorem reads_map {read : Yaml.Node → Except ConfigError γ} {convert : γ → β} {put : α → β → α}
    {get : α → β} (h : ∀ x b, get (put x b) = b) :
    Reads (fun x v => (read v).map fun c => put x (convert c)) (fun v => (read v).map convert)
      get := by
  intro x v y hy
  obtain ⟨c, hc, rfl⟩ := map_eq_ok.1 hy
  exact map_eq_ok.2 ⟨c, hc, (h x _).symm⟩

/-- A setter that puts what it has read. -/
theorem reads_put {read : Yaml.Node → Except ConfigError β} {put : α → β → α} {get : α → β}
    (h : ∀ x b, get (put x b) = b) : Reads (fun x v => (read v).map (put x)) read get := by
  intro x v y hy
  obtain ⟨b, hb, rfl⟩ := map_eq_ok.1 hy
  rw [h]
  exact hb

theorem reads_textSetter {put : α → String → α} {get : α → String}
    (h : ∀ x s, get (put x s) = s) : Reads (textSetter put) textOf get :=
  reads_put h

theorem reads_portSetter {put : α → UInt16 → α} {get : α → UInt16}
    (h : ∀ x n, get (put x n) = n) : Reads (portSetter put) portOf get :=
  reads_map h

theorem reads_idSetter {put : α → UInt32 → α} {get : α → UInt32}
    (h : ∀ x n, get (put x n) = n) : Reads (idSetter put) idOf get :=
  reads_map h

theorem reads_sizeSetter {put : α → UInt64 → α} {get : α → UInt64}
    (h : ∀ x n, get (put x n) = n) : Reads (sizeSetter put) sizeOf get :=
  reads_map h

@[simp] theorem keeps_map {read : Yaml.Node → Except ConfigError γ} {put : α → γ → α} {get : α → β}
    (h : ∀ x c, get (put x c) = get x) : Keeps (fun x v => (read v).map (put x)) get := by
  intro x v y hy
  obtain ⟨c, -, rfl⟩ := map_eq_ok.1 hy
  exact h x c

@[simp] theorem keeps_textSetter {put : α → String → α} {get : α → β}
    (h : ∀ x s, get (put x s) = get x) : Keeps (textSetter put) get :=
  keeps_map h

@[simp] theorem keeps_portSetter {put : α → UInt16 → α} {get : α → β}
    (h : ∀ x n, get (put x n) = get x) : Keeps (portSetter put) get :=
  keeps_map fun x _ => h x _

@[simp] theorem keeps_idSetter {put : α → UInt32 → α} {get : α → β}
    (h : ∀ x n, get (put x n) = get x) : Keeps (idSetter put) get :=
  keeps_map fun x _ => h x _

@[simp] theorem keeps_sizeSetter {put : α → UInt64 → α} {get : α → β}
    (h : ∀ x n, get (put x n) = get x) : Keeps (sizeSetter put) get :=
  keeps_map fun x _ => h x _

end Setters

/-! ## Groups of setters -/

section Groups

variable {α β : Type} {setters : List (String × Setter α)} {name : String}
  {read : Yaml.Node → Except ConfigError β} {get : α → β} {x y : α}

/-- A setting of a group: the setter of one name reads it, and all others keep it. -/
structure Owns (setters : List (String × Setter α)) (name : String)
    (read : Yaml.Node → Except ConfigError β) (get : α → β) : Prop where
  reads : ∃ set, Keyed.get? name setters = some set ∧ Reads set read get
  keeps : ∀ entry ∈ setters, entry.1 ≠ name → Keeps entry.2 get

theorem mem_of_get? {setters : List (String × Setter α)} {set : Setter α}
    (h : Keyed.get? name setters = some set) : (name, set) ∈ setters := by
  induction setters with
  | nil => cases h
  | cons entry rest ih =>
      rw [Keyed.get?] at h
      split at h
      case isTrue hname =>
        cases h
        rw [← hname]
        exact List.mem_cons_self
      case isFalse => exact List.mem_cons_of_mem _ (ih h)

/-- The names that came before stand in no later entry, so the first entry of a name decides. -/
theorem Owns.takeEntries (h : Owns setters name read get) {seen : List String}
    {entries : List (Yaml.Node × Yaml.Node)}
    (ht : Options.takeEntries setters seen x entries = .ok y) :
    ∃ x?, Supplies read (entries.findSome? (Yaml.Node.named? name)) x? ∧
      get y = x?.getD (get x) ∧ (name ∈ seen → x? = none) := by
  induction entries generalizing seen x with
  | nil =>
      cases ht
      exact ⟨none, .missing, rfl, fun _ => rfl⟩
  | cons entry rest ih =>
      obtain ⟨key, v⟩ := entry
      obtain ⟨own, hown, hreads⟩ := h.reads
      simp only [Options.takeEntries, bind_eq_ok] at ht
      obtain ⟨other, hkey, ht⟩ := ht
      obtain ⟨plain, rfl⟩ : ∃ plain, key = .scalar plain other := by
        cases key with
        | scalar plain text =>
            cases hkey
            exact ⟨plain, rfl⟩
        | _ => cases hkey
      rw [List.findSome?_cons, Yaml.Node.named?]
      cases hset : Keyed.get? other setters with
      | none =>
          have hother : other ≠ name := by
            rintro rfl
            rw [hown] at hset
            cases hset
          rw [hset] at ht
          rw [if_neg hother]
          exact ih ht
      | some set =>
          simp only [hset] at ht
          split at ht
          case isTrue => cases ht
          case isFalse hnew =>
            obtain ⟨x', hx', ht⟩ := bind_eq_ok.1 ht
            obtain ⟨x?, hsupplies, hget, hseen⟩ := ih ht
            by_cases hother : other = name
            · subst hother
              rw [hown] at hset
              cases hset
              rw [hseen List.mem_cons_self] at hget
              rw [if_pos rfl]
              exact ⟨some (get x'), .given v _ (hreads x v x' hx'), hget, fun hs => absurd hs hnew⟩
            · rw [if_neg hother]
              have hkeeps := h.keeps _ (mem_of_get? hset) hother x v x' hx'
              exact ⟨x?, hsupplies, hkeeps ▸ hget, fun hs => hseen (List.mem_cons_of_mem _ hs)⟩

/-- A group that is read has each setting as its entry gives it, or else as it was. -/
theorem Owns.group (h : Owns setters name read get) {v : Yaml.Node}
    (hg : Options.group setters x v = .ok y) :
    ∃ x?, Supplies read (v.entry? name) x? ∧ get y = x?.getD (get x) := by
  cases v with
  | mapping entries =>
      obtain ⟨x?, hsupplies, hget, -⟩ := h.takeEntries hg
      exact ⟨x?, hsupplies, hget⟩
  | scalar plain text =>
      obtain rfl : x = y := by
        unfold Options.group at hg
        split at hg
        case h_1 heq => cases heq
        case h_2 => exact Except.ok.inj hg
        case h_3 => cases hg
      exact ⟨none, .missing, rfl⟩
  | sequence items => cases hg

/-- A setting of an inner group is given by an entry of that group. -/
theorem Owns.inner {γ : Type} {inner : List (String × Setter β)} {defaults : β}
    {groupName name : String} {read : Yaml.Node → Except ConfigError γ} {sub : β → γ}
    (h : Owns setters groupName (Options.group inner defaults) get)
    (hi : Owns inner name read sub) (hdefaults : get x = defaults) {v : Yaml.Node}
    (hg : Options.group setters x v = .ok y) :
    ∃ x?, Supplies read (v.at? [groupName, name]) x? ∧ sub (get y) = x?.getD (sub defaults) := by
  obtain ⟨group?, hsupplies, hgroup⟩ := h.group hg
  generalize hentry : v.entry? groupName = entry at hsupplies
  cases hsupplies with
  | missing =>
      refine ⟨none, ?_, ?_⟩
      · rw [Yaml.Node.at?, hentry]
        exact .missing
      · rw [hgroup, ← hdefaults]
        rfl
  | given w z hz =>
      obtain ⟨x?, hx?, hget⟩ := hi.group hz
      refine ⟨x?, ?_, ?_⟩
      · have hat : v.at? [groupName, name] = w.entry? name := by
          simp [Yaml.Node.at?, hentry]
        rw [hat]
        exact hx?
      · rw [hgroup]
        exact hget

theorem Owns.outer (h : Owns setters name read get) {v : Yaml.Node}
    (hg : Options.group setters x v = .ok y) :
    ∃ x?, Supplies read (v.at? [name]) x? ∧ get y = x?.getD (get x) := by
  have hat : v.at? [name] = v.entry? name := by
    simp [Yaml.Node.at?]
  rw [hat]
  exact h.group hg

end Groups

/-! ## The settings of a file -/

/-- The value of a setting. The flag that names a file sets nothing. -/
def setting (o : Options) : (f : Flag) → f.Value
  | .text .log => o.logLevel
  | .text .logFile => o.logFile
  | .text .config => ""
  | .text .seed => o.p2p.seed
  | .text .bootstrap => o.p2p.bootstrap
  | .text .hostname => o.p2p.hostname
  | .port .listenPort => o.p2p.listenPort
  | .size .lowWater => o.p2p.lowWater
  | .size .highWater => o.p2p.highWater
  | .text .room => o.p2p.room
  | .dhtServer => o.p2p.dhtServerMode
  | .text .peerstoreFile => o.p2p.peerstoreFile
  | .text .socksProxy => o.p2p.socksProxy
  | .size .d => o.gossip.d
  | .size .dlo => o.gossip.dlo
  | .size .dhi => o.gossip.dhi
  | .size .dout => o.gossip.dout
  | .size .dscore => o.gossip.dscore
  | .size .dlazy => o.gossip.dlazy
  | .size .prunePeers => o.gossip.prunePeers
  | .size .limit => o.gossip.limit
  | .text .subject => o.bus.subject
  | .id .childId => o.bus.childId
  | .id .childProcessCount => o.bus.childProcessCount
  | .text .natsHost => o.bus.natsHost
  | .port .natsPort => o.bus.natsPort

theorem owns_peer : Owns setters "p2p" (group peerSetters {}) (·.p2p) where
  reads := ⟨_, rfl, reads_put fun _ _ => rfl⟩
  keeps := by simp [setters]

theorem owns_mesh : Owns setters "gossip" (group meshSetters {}) (·.gossip) where
  reads := ⟨_, rfl, reads_put fun _ _ => rfl⟩
  keeps := by simp [setters]

theorem owns_bus : Owns setters "ipc" (group busSetters {}) (·.bus) where
  reads := ⟨_, rfl, reads_put fun _ _ => rfl⟩
  keeps := by simp [setters]

/-- An accepted file gives a setting the value of its key, or else the default. -/
theorem setting_ofNode {root : Yaml.Node} {file : Options} (h : ofNode root = .ok file) {f : Flag}
    (hf : f ≠ .text .config) :
    ∃ x?, Supplies f.read (root.at? f.key) x? ∧ file.setting f = x?.getD (setting {} f) := by
  cases f with
  | text f =>
      cases f with
      | config => exact absurd rfl hf
      | log | logFile =>
          dsimp only [Flag.key, Flag.read, setting]
          refine Owns.outer ?_ h
          exact ⟨⟨_, rfl, reads_textSetter fun _ _ => rfl⟩, by simp [setters]⟩
      | seed | bootstrap | hostname | room | peerstoreFile | socksProxy =>
          dsimp only [Flag.key, Flag.read, setting]
          refine owns_peer.inner ?_ rfl h
          exact ⟨⟨_, rfl, reads_textSetter fun _ _ => rfl⟩, by simp [peerSetters]⟩
      | subject | natsHost =>
          dsimp only [Flag.key, Flag.read, setting]
          refine owns_bus.inner ?_ rfl h
          exact ⟨⟨_, rfl, reads_textSetter fun _ _ => rfl⟩, by simp [busSetters]⟩
  | port f =>
      cases f with
      | listenPort =>
          dsimp only [Flag.key, Flag.read, setting]
          refine owns_peer.inner ?_ rfl h
          exact ⟨⟨_, rfl, reads_portSetter fun _ _ => rfl⟩, by simp [peerSetters]⟩
      | natsPort =>
          dsimp only [Flag.key, Flag.read, setting]
          refine owns_bus.inner ?_ rfl h
          exact ⟨⟨_, rfl, reads_portSetter fun _ _ => rfl⟩, by simp [busSetters]⟩
  | id f =>
      cases f with
      | childId | childProcessCount =>
          dsimp only [Flag.key, Flag.read, setting]
          refine owns_bus.inner ?_ rfl h
          exact ⟨⟨_, rfl, reads_idSetter fun _ _ => rfl⟩, by simp [busSetters]⟩
  | size f =>
      cases f with
      | lowWater | highWater =>
          dsimp only [Flag.key, Flag.read, setting]
          refine owns_peer.inner ?_ rfl h
          exact ⟨⟨_, rfl, reads_sizeSetter fun _ _ => rfl⟩, by simp [peerSetters]⟩
      | d | dlo | dhi | dout | dscore | dlazy | prunePeers | limit =>
          dsimp only [Flag.key, Flag.read, setting]
          refine owns_mesh.inner ?_ rfl h
          exact ⟨⟨_, rfl, reads_sizeSetter fun _ _ => rfl⟩, by simp [meshSetters]⟩
  | dhtServer =>
      dsimp only [Flag.key, Flag.read, setting]
      refine owns_peer.inner ?_ rfl h
      exact ⟨⟨_, rfl, reads_put fun _ _ => rfl⟩, by simp [peerSetters]⟩

end Options

end GossipDirectory
