import GossipDirectory.Proofs.Shard.Acceptance

/-!
# The ports of shards

A shard listens on the base port plus its id, and on the last port if there is no such port. So the
shards of a parent listen on ports of their own exactly if all of them fit below the end of the
port range; the checks of the options do not see to that.

## Implementation notes

A base port of zero cannot be passed on, because zero stands for a setting that is not given. The
port of a shard is therefore stated for the base port that the shard reads.
-/

namespace GossipDirectory

/-- The last port. -/
def lastPort : Nat := 65535

theorem toNat_childPort (base : UInt16) (id : UInt32) :
    (childPort base id).toNat = min lastPort (base.toNat + id.toNat) := by
  have hmin : min 65535 (base.toNat + min 65535 id.toNat) = min 65535 (base.toNat + id.toNat) := by
    omega
  rw [childPort, hmin, UInt16.toNat_ofNat', Nat.mod_eq_of_lt (by omega)]
  rfl

/-- All shards up to a number have ports of their own. -/
def Apart (port : UInt32 → UInt16) (count : UInt32) : Prop :=
  ∀ i j, 1 ≤ i → i ≤ count → 1 ≤ j → j ≤ count → i ≠ j → port i ≠ port j

/-- All shards up to a number have the base port plus their id. -/
def Offset (base : UInt16) (port : UInt32 → UInt16) (count : UInt32) : Prop :=
  ∀ i, 1 ≤ i → i ≤ count → (port i).toNat = base.toNat + i.toNat

section Range

variable {base : UInt16} {count : UInt32}

theorem offset_childPort_iff :
    Offset base (childPort base) count ↔ count = 0 ∨ base.toNat + count.toNat ≤ lastPort := by
  constructor
  · intro h
    by_cases hzero : count = 0
    · exact Or.inl hzero
    · have hone : 1 ≤ count := by
        rw [UInt32.le_iff_toNat_le]
        exact Nat.pos_of_ne_zero fun he => hzero (UInt32.toNat_inj.1 he)
      have hlast := h count hone (UInt32.le_refl count)
      rw [toNat_childPort] at hlast
      exact Or.inr (by omega)
  · rintro (rfl | hfits) i hi hle
    · exact absurd (UInt32.le_trans hi hle) (by decide)
    · rw [UInt32.le_iff_toNat_le] at hle
      rw [toNat_childPort]
      omega

/-- The last two shards are the first ones to share a port. -/
theorem apart_childPort_iff :
    Apart (childPort base) count ↔ count ≤ 1 ∨ base.toNat + count.toNat ≤ lastPort := by
  constructor
  · intro h
    by_cases hone : count ≤ 1
    · exact Or.inl hone
    · rw [UInt32.le_iff_toNat_le] at hone
      change ¬ count.toNat ≤ 1 at hone
      have hprevious : (count - 1).toNat = count.toNat - 1 := by
        apply UInt32.toNat_sub_of_le
        rw [UInt32.le_iff_toNat_le]
        change 1 ≤ count.toNat
        omega
      have hne : childPort base (count - 1) ≠ childPort base count := by
        apply h
        · rw [UInt32.le_iff_toNat_le, hprevious]
          change 1 ≤ _
          omega
        · rw [UInt32.le_iff_toNat_le, hprevious]
          omega
        · rw [UInt32.le_iff_toNat_le]
          change 1 ≤ _
          omega
        · exact UInt32.le_refl count
        · intro he
          have := congrArg UInt32.toNat he
          omega
      have hports : min lastPort (base.toNat + (count.toNat - 1)) ≠
          min lastPort (base.toNat + count.toNat) := by
        rw [← hprevious, ← toNat_childPort, ← toNat_childPort]
        exact fun he => hne (UInt16.toNat_inj.1 he)
      exact Or.inr (by omega)
  · rintro hfits i j hi hile hj hjle hne he
    rw [UInt32.le_iff_toNat_le] at hi hile hj hjle
    have hids : i.toNat ≠ j.toNat := fun h => hne (UInt32.toNat_inj.1 h)
    have hports := congrArg UInt16.toNat he
    rw [toNat_childPort, toNat_childPort] at hports
    rcases hfits with hone | hfits
    · rw [UInt32.le_iff_toNat_le] at hone
      change count.toNat ≤ 1 at hone
      change 1 ≤ i.toNat at hi
      change 1 ≤ j.toNat at hj
      omega
    · omega

end Range

/-- A shard that accepts its command line listens on the base port it was given plus its id. -/
theorem effectiveListenPort_of_commandLine {childId : UInt32} {o o' : Options} {files : FileTree}
    (h : optionsOfCommandLine (childArguments childId o) files = .ok o') :
    o'.effectiveListenPort =
      childPort (overNumber ({} : PeerOptions).listenPort o.p2p.listenPort) childId := by
  obtain ⟨a, hread, ha⟩ := optionsOfCommandLine_eq_ok h
  have hholds := holds_of_read hread
  obtain ⟨base, hbase, rfl⟩ := Arguments.toOptions_eq_ok ha
  have hconfig : a.text .config = "" := hholds.text_eq_empty (get?_of_optional rfl (by simp))
  rw [hconfig] at hbase
  cases hbase
  have hswitched : ∀ o' : Options,
      (a.switched o').effectiveListenPort = o'.effectiveListenPort := by
    intro o'
    unfold Arguments.switched
    split
    · rfl
    · rfl
  rw [hswitched, layer_of_holds hholds]
  calc
    (Options.merge {} { o with
        logFile := ""
        bus := { o.bus with childId, childProcessCount := 0 } }).effectiveListenPort =
      childPort (overNumber ({} : PeerOptions).listenPort o.p2p.listenPort)
        (overNumber 0 childId) := rfl
    _ = _ := by rw [overNumber_zero]

/-- The shards of a parent are given ports of their own exactly if the last of them still fits into
the port range, and each is given the base port plus its id exactly under the same condition. They
do listen there, unless the base port is zero. The checks of the options let every base port and
every number of shards pass. -/
theorem shardPorts_apart_iff (o : Options) :
    (Apart (fun i => (ChildDescriptor.ofOptions i o).listenPort) o.bus.childProcessCount ↔
      o.bus.childProcessCount ≤ 1 ∨
        o.p2p.listenPort.toNat + o.bus.childProcessCount.toNat ≤ lastPort) ∧
    (Offset o.p2p.listenPort (fun i => (ChildDescriptor.ofOptions i o).listenPort)
        o.bus.childProcessCount ↔
      o.bus.childProcessCount = 0 ∨
        o.p2p.listenPort.toNat + o.bus.childProcessCount.toNat ≤ lastPort) ∧
    (∀ i files o', optionsOfCommandLine (childArguments i o) files = .ok o' →
      o'.effectiveListenPort = (ChildDescriptor.ofOptions i { o with p2p := { o.p2p with
        listenPort := overNumber ({} : PeerOptions).listenPort o.p2p.listenPort } }).listenPort) ∧
    (o.validate = .ok () → ∀ listenPort childProcessCount,
      Options.validate { o with
        p2p := { o.p2p with listenPort }, bus := { o.bus with childProcessCount } } = .ok ()) := by
  refine ⟨apart_childPort_iff, offset_childPort_iff, ?_, ?_⟩
  · intro i files o' ho'
    exact effectiveListenPort_of_commandLine ho'
  · intro hvalidate listenPort childProcessCount
    rw [Options.validate_eq_ok_iff] at hvalidate ⊢
    exact hvalidate

/-- Two shards next to the end of the port range: the options are accepted, each shard accepts its
line, and both listen on the last port. -/
theorem lastPort_shared :
    ∃ o o₁ o₂ : Options,
      optionsOfCommandLine ["--p2pListenPort=65534", "--ipcChildProcessCount=2"] .empty = .ok o ∧
      o.validate = .ok () ∧
      ¬ Apart (fun i => (ChildDescriptor.ofOptions i o).listenPort) o.bus.childProcessCount ∧
      optionsOfCommandLine (childArguments 1 o) .empty = .ok o₁ ∧
      optionsOfCommandLine (childArguments 2 o) .empty = .ok o₂ ∧
      o₁.effectiveListenPort = 65535 ∧ o₂.effectiveListenPort = 65535 := by
  have ho : optionsOfCommandLine ["--p2pListenPort=65534", "--ipcChildProcessCount=2"] .empty =
      .ok { p2p := { listenPort := 65534 }, bus := { childProcessCount := 2 } } :=
    eq_ok_of_toOption (by decide +kernel)
  have ho₁ : optionsOfCommandLine (childArguments 1
      { p2p := { listenPort := 65534 }, bus := { childProcessCount := 2 } }) .empty =
      .ok { p2p := { listenPort := 65534 }, bus := { childId := 1 } } :=
    eq_ok_of_toOption (by decide +kernel)
  have ho₂ : optionsOfCommandLine (childArguments 2
      { p2p := { listenPort := 65534 }, bus := { childProcessCount := 2 } }) .empty =
      .ok { p2p := { listenPort := 65534 }, bus := { childId := 2 } } :=
    eq_ok_of_toOption (by decide +kernel)
  obtain ⟨hapart, -, hlisten, -⟩ := shardPorts_apart_iff
    { p2p := { listenPort := 65534 }, bus := { childProcessCount := 2 } }
  refine ⟨_, _, _, ho, validate_of_commandLine ho, ?_, ho₁, ho₂, ?_, ?_⟩
  · rw [hapart]
    decide
  · exact (hlisten 1 _ _ ho₁).trans (by decide)
  · exact (hlisten 2 _ _ ho₂).trans (by decide)

end GossipDirectory
