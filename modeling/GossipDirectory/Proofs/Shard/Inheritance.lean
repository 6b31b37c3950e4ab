import GossipDirectory.Proofs.CommandLine.GivenSettings
import GossipDirectory.Proofs.Options.Complete
import GossipDirectory.Server.Modes

/-!
# What a shard inherits

A shard reads its options from the command line that its parent gives it. If it accepts that line
at all, it has all settings of the parent, except that it is a shard of its own, has no shards and
keeps the default log file.

## Implementation notes

The parent's options come from a command line themselves and are therefore complete. This is what
makes it harmless that empty texts are left out and that empty and zero values give nothing.
-/

namespace GossipDirectory

/-- The settings that a parent always writes. -/
def requiredSettings (childId : UInt32) (o : Options) : List Setting :=
  [(.id .childId, Decimal.text childId.toNat),
    (.text .subject, o.bus.subject),
    (.text .natsHost, o.bus.natsHost),
    (.port .natsPort, Decimal.text o.bus.natsPort.toNat)]

/-- The settings that a parent writes unless they are empty. -/
def optionalSettings (o : Options) : List Setting :=
  [(.text .seed, o.p2p.seed),
    (.text .bootstrap, o.p2p.bootstrap),
    (.text .hostname, o.p2p.hostname),
    (.text .room, o.p2p.room),
    (.port .listenPort, Decimal.text o.p2p.listenPort.toNat),
    (.size .lowWater, Decimal.text o.p2p.lowWater.toNat),
    (.size .highWater, Decimal.text o.p2p.highWater.toNat),
    (.text .peerstoreFile, o.p2p.peerstoreFile),
    (.text .socksProxy, o.p2p.socksProxy),
    (.size .d, Decimal.text o.gossip.d.toNat),
    (.size .dlo, Decimal.text o.gossip.dlo.toNat),
    (.size .dhi, Decimal.text o.gossip.dhi.toNat),
    (.size .dout, Decimal.text o.gossip.dout.toNat),
    (.size .dscore, Decimal.text o.gossip.dscore.toNat),
    (.size .dlazy, Decimal.text o.gossip.dlazy.toNat),
    (.size .prunePeers, Decimal.text o.gossip.prunePeers.toNat),
    (.size .limit, Decimal.text o.gossip.limit.toNat),
    (.text .log, o.logLevel)]

/-- The settings of a shard's command line, apart from the server switch. -/
def childSettings (childId : UInt32) (o : Options) : List Setting :=
  requiredSettings childId o ++ (optionalSettings o).filter (·.2 ≠ "")

/-- The server switch as it ends the command line of a shard. -/
def switchArguments (o : Options) : List String :=
  if o.p2p.dhtServerMode then [Flag.dhtServer.word] else []

/-- The setting of the server switch. -/
def switchSettings (o : Options) : List Setting :=
  if o.p2p.dhtServerMode then [(.dhtServer, "true")] else []

theorem settingArguments_append (settings more : List Setting) :
    settingArguments (settings ++ more) = settingArguments settings ++ settingArguments more :=
  List.flatMap_append

theorem settingArguments_filter (settings : List Setting) :
    settingArguments (settings.filter (·.2 ≠ "")) =
      settings.flatMap fun s => givenArguments s.1 s.2 := by
  induction settings with
  | nil => rfl
  | cons s settings ih =>
      rw [List.flatMap_cons, ← ih]
      by_cases h : s.2 = ""
      · rw [List.filter_cons_of_neg (by simpa using h), givenArguments, if_pos h, List.nil_append]
      · rw [List.filter_cons_of_pos (by simpa using h), givenArguments, if_neg h]
        rfl

theorem childArguments_eq (childId : UInt32) (o : Options) :
    childArguments childId o =
      settingArguments (childSettings childId o) ++ switchArguments o := by
  rw [childSettings, settingArguments_append, settingArguments_filter]
  unfold childArguments
  simp only [settingArguments, requiredSettings, optionalSettings, switchArguments,
    List.flatMap_cons, List.flatMap_nil, List.append_assoc, List.append_nil]

/-- A shard that accepts its command line reads the settings that its parent wrote. -/
theorem holds_of_read {childId : UInt32} {o : Options} {a : Arguments}
    (h : Arguments.read (childArguments childId o) = .ok a) :
    a.Holds (childSettings childId o ++ switchSettings o) := by
  have hvalued : ∀ s ∈ childSettings childId o, s.1 ≠ .dhtServer := by
    intro s hs
    rw [childSettings, List.mem_append] at hs
    obtain hs | hs := hs
    · have hflag : s.1 ∈ Keyed.keys (requiredSettings childId o) := List.mem_map_of_mem hs
      exact fun he => absurd (he ▸ hflag) (by simp [Keyed.keys, requiredSettings])
    · have hflag : s.1 ∈ Keyed.keys (optionalSettings o) :=
        List.mem_map_of_mem (List.mem_filter.1 hs).1
      exact fun he => absurd (he ▸ hflag) (by simp [Keyed.keys, optionalSettings])
  rw [Arguments.read, childArguments_eq] at h
  unfold switchArguments at h
  unfold switchSettings
  split at h
  case isTrue hon =>
    rw [if_pos hon]
    have hstart : Arguments.StartsWithFlag [Flag.dhtServer.word] := Or.inr ⟨_, _, rfl⟩
    obtain ⟨a', hholds, hswitch⟩ := Arguments.holds_nil.scan hvalued hstart h
    exact hholds.scan_switch hswitch
  case isFalse hoff =>
    rw [if_neg hoff]
    obtain ⟨a', hholds, hend⟩ := Arguments.holds_nil.scan hvalued (Or.inl rfl) h
    cases hend
    simpa using hholds

/-! ## What the settings say -/

theorem nodup_keys_optionalSettings (o : Options) : (Keyed.keys (optionalSettings o)).Nodup := by
  simp [Keyed.keys, optionalSettings]

theorem get?_of_required {childId : UInt32} {o : Options} {f : Flag} {value : String}
    (h : Keyed.get? f (requiredSettings childId o) = some value) :
    Keyed.get? f (childSettings childId o ++ switchSettings o) = some value := by
  rw [childSettings, Keyed.get?_append, Keyed.get?_append, h]
  rfl

/-- Settings that are left out when empty are found like others, unless they are empty. -/
theorem get?_of_optional {childId : UInt32} {o : Options} {f : Flag}
    (hrequired : Keyed.get? f (requiredSettings childId o) = none) (hf : f ≠ .dhtServer) :
    Keyed.get? f (childSettings childId o ++ switchSettings o) =
      (Keyed.get? f (optionalSettings o)).filter (· ≠ "") := by
  have hswitch : Keyed.get? f (switchSettings o) = none := by
    unfold switchSettings
    split
    · simp [Keyed.get?, hf.symm]
    · rfl
  rw [childSettings, Keyed.get?_append, Keyed.get?_append, hrequired, hswitch,
    Keyed.get?_filter (nodup_keys_optionalSettings o), Option.none_or, Option.or_none]

theorem decimalText_ne_empty (n : Nat) : Decimal.text n ≠ "" := by
  intro h
  have hlist := congrArg String.toList h
  rw [Decimal.text, String.toList_ofList] at hlist
  exact Decimal.render_ne_nil n hlist

section Inherited

variable {childId : UInt32} {o : Options} {a : Arguments}

theorem text_of_optional {f : TextFlag} {value : String}
    (h : a.Holds (childSettings childId o ++ switchSettings o))
    (hrequired : Keyed.get? (.text f) (requiredSettings childId o) = none)
    (hoptional : Keyed.get? (.text f) (optionalSettings o) = some value) : a.text f = value := by
  have hget := get?_of_optional hrequired (by simp)
  rw [hoptional] at hget
  by_cases he : value = ""
  · rw [h.text_eq_empty (by simp [hget, he]), he]
  · exact h.text_eq (by simp [hget, he])

theorem port_of_optional {f : PortFlag} {n : UInt16}
    (h : a.Holds (childSettings childId o ++ switchSettings o))
    (hrequired : Keyed.get? (.port f) (requiredSettings childId o) = none)
    (hoptional : Keyed.get? (.port f) (optionalSettings o) = some (Decimal.text n.toNat)) :
    a.port f = n := by
  have hget := get?_of_optional hrequired (by simp)
  rw [hoptional] at hget
  exact h.port_eq (by simp [hget, decimalText_ne_empty])

theorem size_of_optional {f : SizeFlag} {n : UInt64}
    (h : a.Holds (childSettings childId o ++ switchSettings o))
    (hrequired : Keyed.get? (.size f) (requiredSettings childId o) = none)
    (hoptional : Keyed.get? (.size f) (optionalSettings o) = some (Decimal.text n.toNat)) :
    a.size f = n := by
  have hget := get?_of_optional hrequired (by simp)
  rw [hoptional] at hget
  exact h.size_eq (by simp [hget, decimalText_ne_empty])

theorem dhtServer_of_holds (h : a.Holds (childSettings childId o ++ switchSettings o)) :
    a.dhtServer = if o.p2p.dhtServerMode then some true else none := by
  have hchild : Keyed.get? .dhtServer (childSettings childId o) = none := by
    rw [childSettings, Keyed.get?_append, Keyed.get?_filter (nodup_keys_optionalSettings o)]
    rfl
  rw [h.dhtServer_eq, Keyed.get?_append, hchild, Option.none_or]
  unfold switchSettings
  split
  · rfl
  · rfl

theorem peerLayer_of_holds (h : a.Holds (childSettings childId o ++ switchSettings o)) :
    a.layer.p2p = o.p2p := by
  have hswitch : a.dhtServer.getD false = o.p2p.dhtServerMode := by
    rw [dhtServer_of_holds h]
    cases o.p2p.dhtServerMode <;> rfl
  simp only [Arguments.layer, hswitch,
    text_of_optional (f := .seed) h rfl rfl, text_of_optional (f := .bootstrap) h rfl rfl,
    text_of_optional (f := .hostname) h rfl rfl, text_of_optional (f := .room) h rfl rfl,
    text_of_optional (f := .peerstoreFile) h rfl rfl,
    text_of_optional (f := .socksProxy) h rfl rfl,
    port_of_optional (f := .listenPort) h rfl rfl,
    size_of_optional (f := .lowWater) h rfl rfl, size_of_optional (f := .highWater) h rfl rfl]

theorem meshLayer_of_holds (h : a.Holds (childSettings childId o ++ switchSettings o)) :
    a.layer.gossip = o.gossip := by
  simp only [Arguments.layer,
    size_of_optional (f := .d) h rfl rfl, size_of_optional (f := .dlo) h rfl rfl,
    size_of_optional (f := .dhi) h rfl rfl, size_of_optional (f := .dout) h rfl rfl,
    size_of_optional (f := .dscore) h rfl rfl, size_of_optional (f := .dlazy) h rfl rfl,
    size_of_optional (f := .prunePeers) h rfl rfl, size_of_optional (f := .limit) h rfl rfl]

theorem busLayer_of_holds (h : a.Holds (childSettings childId o ++ switchSettings o)) :
    a.layer.bus = { o.bus with childId, childProcessCount := 0 } := by
  have hcount : a.id .childProcessCount = 0 :=
    h.id_eq_zero (get?_of_optional rfl (by simp))
  simp only [Arguments.layer, hcount,
    h.text_eq (f := .subject) (get?_of_required rfl),
    h.text_eq (f := .natsHost) (get?_of_required rfl),
    h.port_eq (f := .natsPort) (get?_of_required rfl),
    h.id_eq (f := .childId) (get?_of_required rfl)]

/-- The layer that a shard's command line puts on the defaults. -/
theorem layer_of_holds (h : a.Holds (childSettings childId o ++ switchSettings o)) :
    a.layer = { o with
      logFile := "", bus := { o.bus with childId, childProcessCount := 0 } } := by
  have hlogLevel : a.layer.logLevel = o.logLevel := text_of_optional (f := .log) h rfl rfl
  have hlogFile : a.layer.logFile = "" := h.text_eq_empty (get?_of_optional rfl (by simp))
  calc
    a.layer = ⟨a.layer.logLevel, a.layer.logFile, a.layer.p2p, a.layer.gossip, a.layer.bus⟩ := rfl
    _ = _ := by
      rw [hlogLevel, hlogFile, peerLayer_of_holds h, meshLayer_of_holds h, busLayer_of_holds h]

/-! ## The options of a shard -/

/-- The defaults give a shard its log file and nothing else. -/
theorem merge_inherited (ho : o.Complete) (childId : UInt32) :
    Options.merge {} { o with
        logFile := "", bus := { o.bus with childId, childProcessCount := 0 } } =
      { o with
        logFile := ({} : Options).logFile
        bus := { o.bus with childId, childProcessCount := 0 } } := by
  calc
    Options.merge {} { o with
        logFile := "", bus := { o.bus with childId, childProcessCount := 0 } } =
      { Options.merge {} o with
        logFile := ({} : Options).logFile
        bus := { (Options.merge {} o).bus with
          childId := overNumber 0 childId, childProcessCount := 0 } } := rfl
    _ = _ := by rw [ho, overNumber_zero]

theorem switched_of_holds {o' : Options}
    (h : a.Holds (childSettings childId o ++ switchSettings o))
    (hon : o'.p2p.dhtServerMode = o.p2p.dhtServerMode) : a.switched o' = o' := by
  unfold Arguments.switched
  rw [dhtServer_of_holds h]
  by_cases hs : o.p2p.dhtServerMode
  · rw [if_pos hs]
    rw [hs] at hon
    calc
      { o' with p2p := { o'.p2p with dhtServerMode := true } } =
          { o' with p2p := { o'.p2p with dhtServerMode := o'.p2p.dhtServerMode } } := by rw [hon]
      _ = o' := rfl
  · rw [if_neg hs]

/-- A shard that accepts its command line has its parent's settings. -/
theorem inherited_of_commandLine (ho : o.Complete) {files : FileTree} {o' : Options}
    (h : optionsOfCommandLine (childArguments childId o) files = .ok o') :
    o' = { o with
      logFile := ({} : Options).logFile
      bus := { o.bus with childId, childProcessCount := 0 } } := by
  obtain ⟨a, hread, ha⟩ := optionsOfCommandLine_eq_ok h
  have hholds := holds_of_read hread
  obtain ⟨base, hbase, rfl⟩ := Arguments.toOptions_eq_ok ha
  have hconfig : a.text .config = "" := hholds.text_eq_empty (get?_of_optional rfl (by simp))
  rw [hconfig] at hbase
  cases hbase
  rw [layer_of_holds hholds, merge_inherited ho]
  exact switched_of_holds hholds rfl

end Inherited

/-- A process that is a shard comes up as one, whatever starting a shard would do. -/
theorem start_of_shard {o : Options} (h : o.mode = .shard) (m : Machine) (r : Randomness)
    (cancelled : Bool) :
    (∀ launch, Server.start { m with launch } o r cancelled = Server.start m o r cancelled) ∧
      ∀ s, Server.start m o r cancelled = .ok s → ∃ node relay, s = .shard node relay := by
  constructor
  · intro launch
    unfold Server.start
    rw [h]
    rfl
  · intro s hs
    unfold Server.start at hs
    rw [h] at hs
    obtain ⟨-, -, hs⟩ := bind_eq_ok.1 hs
    obtain ⟨node, -, hs⟩ := bind_eq_ok.1 hs
    cases hs
    exact ⟨_, _, rfl⟩

/-- Whatever options a process runs with, a shard that accepts the command line made of them runs
with the same settings: it is a shard of the given id, starts no shards of its own, logs to the
default file and listens on the port that its parent notes for it. -/
theorem childArguments_inherited {line : List String} {files files' : FileTree} {o o' : Options}
    {childId : UInt32} (hchild : 1 ≤ childId) (ho : optionsOfCommandLine line files = .ok o)
    (ho' : optionsOfCommandLine (childArguments childId o) files' = .ok o') :
    (o'.p2p = o.p2p ∧ o'.gossip = o.gossip ∧ o'.logLevel = o.logLevel ∧
      o'.bus.subject = o.bus.subject ∧ o'.bus.natsHost = o.bus.natsHost ∧
      o'.bus.natsPort = o.bus.natsPort) ∧
    (o'.bus.childId = childId ∧ o'.bus.childProcessCount = 0 ∧
      o'.logFile = ({} : Options).logFile) ∧
    (o'.mode = .shard ∧ ∀ (m : Machine) (r : Randomness) (cancelled : Bool),
      (∀ launch, Server.start { m with launch } o' r cancelled = Server.start m o' r cancelled) ∧
      ∀ s, Server.start m o' r cancelled = .ok s → ∃ node relay, s = .shard node relay) ∧
    o'.effectiveListenPort = (ChildDescriptor.ofOptions childId o).listenPort := by
  have hinherited := inherited_of_commandLine (complete_of_commandLine ho) ho'
  have hmode : o'.mode = .shard := by
    have hid : (0 : UInt32) < childId := by
      rw [UInt32.lt_iff_toNat_lt, UInt32.toNat_zero]
      exact UInt32.le_iff_toNat_le.1 hchild
    rw [hinherited, Options.mode, Options.isChild]
    simp [hid]
  refine ⟨?_, ?_, ⟨hmode, start_of_shard hmode⟩, ?_⟩
  · rw [hinherited]
    exact ⟨rfl, rfl, rfl, rfl, rfl, rfl⟩
  · rw [hinherited]
    exact ⟨rfl, rfl, rfl⟩
  · rw [hinherited]
    rfl

/-- The command line of a process with a named room, an empty seed and a log file of its own. -/
def namedRoomLine : List String :=
  ["--p2pRoom=my room", "--p2pSeed", "", "--gossipD", "6", "--p2pDHTServerMode", "--logfile",
    "x.log", "--ipcChildProcessCount=3"]

/-- The options that the line gives. -/
def namedRoom : Options where
  logFile := "x.log"
  p2p := { room := "my room", dhtServerMode := true }
  gossip := { d := 6 }
  bus := { childProcessCount := 3 }

/-- Its second shard keeps the room, the mesh degree and the server switch. -/
theorem namedRoom_inherited :
    ∃ o', optionsOfCommandLine namedRoomLine .empty = .ok namedRoom ∧
      optionsOfCommandLine (childArguments 2 namedRoom) .empty = .ok o' ∧
      o'.p2p = namedRoom.p2p ∧ o'.gossip = namedRoom.gossip ∧ o'.bus.childId = 2 ∧
      o'.mode = .shard := by
  have ho : optionsOfCommandLine namedRoomLine .empty = .ok namedRoom :=
    eq_ok_of_toOption (by decide +kernel)
  have ho' : optionsOfCommandLine (childArguments 2 namedRoom) .empty =
      .ok { namedRoom with logFile := "-", bus := { childId := 2 } } :=
    eq_ok_of_toOption (by decide +kernel)
  obtain ⟨⟨hp2p, hgossip, -⟩, ⟨hid, -⟩, ⟨hmode, -⟩, -⟩ :=
    childArguments_inherited (by decide) ho ho'
  exact ⟨_, ho, ho', hp2p, hgossip, hid, hmode⟩

end GossipDirectory
