import GossipDirectory.Server.Modes
import Mathlib.Data.List.DropRight
import Mathlib.Data.List.Nodup
import Mathlib.Data.List.Perm.Basic

/-!
# No process without an owner

Whatever a supervisor is asked to do, and whatever launches and kills come to, every process that
was launched is either held by the supervisor, under the id that it was launched for, or was killed
once. The running ids are those that were started since the last shutdown. Starting all shards of a
parent either succeeds or kills every process that it launched.

## Implementation notes

A session is a supervisor among the processes that its launcher has made. The launcher numbers them
by how many it made before, so a process is never made twice. Whether a launch or a kill fails comes
with the call.
-/

namespace GossipDirectory

namespace Supervisor

/-! ## Children in ascending order -/

theorem insertChild_perm (id : UInt32) (child : RunningChild)
    (children : List (UInt32 × RunningChild)) :
    (insertChild id child children).Perm ((id, child) :: children) := by
  induction children with
  | nil => exact .refl _
  | cons entry rest ih =>
      rw [insertChild]
      split
      · exact .refl _
      · exact (ih.cons entry).trans (.swap _ _ _)

theorem keys_insertChild_perm (id : UInt32) (child : RunningChild)
    (children : List (UInt32 × RunningChild)) :
    (Keyed.keys (insertChild id child children)).Perm (id :: Keyed.keys children) :=
  (insertChild_perm id child children).map _

theorem pairwise_insertChild {id : UInt32} {children : List (UInt32 × RunningChild)}
    (h : (Keyed.keys children).Pairwise (· < ·)) (hid : id ∉ Keyed.keys children)
    (child : RunningChild) : (Keyed.keys (insertChild id child children)).Pairwise (· < ·) := by
  induction children with
  | nil => exact List.pairwise_singleton _ _
  | cons entry rest ih =>
      obtain ⟨k, c⟩ := entry
      obtain ⟨hfirst, hrest⟩ := List.pairwise_cons.1 h
      obtain ⟨hne, hid⟩ := not_or.1 (mt List.mem_cons.2 hid)
      rw [insertChild]
      split
      case isTrue hlt =>
        apply List.pairwise_cons.2 ⟨?_, h⟩
        intro other hother
        rcases List.mem_cons.1 hother with rfl | hother
        · exact hlt
        · exact UInt32.lt_trans hlt (hfirst other hother)
      case isFalse hlt =>
        apply List.pairwise_cons.2 ⟨?_, ih hrest hid⟩
        intro other hother
        have hperm := keys_insertChild_perm id child rest
        rcases List.mem_cons.1 (hperm.subset hother) with rfl | hother
        · exact UInt32.lt_of_le_of_ne (UInt32.not_lt.1 hlt) (Ne.symm hne)
        · exact hfirst other hother

/-- A child with the highest id comes last. -/
theorem insertChild_of_forall_lt {id : UInt32} {children : List (UInt32 × RunningChild)}
    (h : ∀ k ∈ Keyed.keys children, k < id) (child : RunningChild) :
    insertChild id child children = children ++ [(id, child)] := by
  induction children with
  | nil => rfl
  | cons entry rest ih =>
      rw [insertChild, if_neg (UInt32.not_lt.2 (UInt32.le_of_lt (h _ List.mem_cons_self))),
        ih fun k hk => h k (List.mem_cons_of_mem _ hk)]
      rfl

/-! ## One start -/

/-- The processes of the running shards, by ascending id. -/
def processes (s : Supervisor) : List ChildProcess :=
  s.shutdown.1

/-- The supervisor with one more running shard. -/
def including (s : Supervisor) (o : Options) (childId : UInt32) (process : ChildProcess) :
    Supervisor :=
  { s with
    children := insertChild childId
      { descriptor := ChildDescriptor.ofOptions childId o, process } s.children }

/-- What can come of starting a shard. -/
inductive Outcome (s : Supervisor) (childId : UInt32) (o : Options)
    (launch : Launch → Except Failure ChildProcess) : Start → Prop
  | rejected (e : Failure) (h : childId = 0 ∨ childId ∈ s.ids) :
    Outcome s childId o launch { result := .error e, attempt := none, supervisor := s }
  | failed (e : Failure) (hzero : childId ≠ 0) (hfree : childId ∉ s.ids)
    (h : launch (s.launchOf childId o) = .error e) :
    Outcome s childId o launch
      { result := .error e, attempt := some (s.launchOf childId o), supervisor := s }
  | started (process : ChildProcess) (hzero : childId ≠ 0) (hfree : childId ∉ s.ids)
    (h : launch (s.launchOf childId o) = .ok process) :
    Outcome s childId o launch
      { result := .ok (ChildDescriptor.ofOptions childId o)
        attempt := some (s.launchOf childId o)
        supervisor := s.including o childId process }

theorem outcome_startChild (s : Supervisor) (childId : UInt32) (o : Options)
    (launch : Launch → Except Failure ChildProcess) :
    Outcome s childId o launch (s.startChild childId o launch) := by
  have htaken : Keyed.contains childId s.children = true ↔ childId ∈ s.ids :=
    Keyed.get?_isSome_iff_mem childId s.children
  rw [startChild]
  split
  case isTrue hzero => exact .rejected _ (.inl hzero)
  case isFalse hzero =>
    split
    case isTrue h => exact .rejected _ (.inr (htaken.1 h))
    case isFalse h =>
      have hfree : childId ∉ s.ids := mt htaken.2 h
      dsimp only
      split
      case h_1 e hlaunch => exact .failed e hzero hfree hlaunch
      case h_2 process hlaunch => exact .started process hzero hfree hlaunch

/-! ## Sessions -/

/-- A call on a supervisor, with what its launcher or its processes do about it. -/
inductive Call
  /-- Starts a shard; the launcher may refuse. -/
  | start (childId : UInt32) (o : Options) (refusal : Launch → Option Failure)
  /-- Kills every shard; each kill may fail. -/
  | shutdown (kill : ChildProcess → Except Failure Unit)

/-- What a call has come to. -/
inductive Report
  | started (childId : UInt32)
  | notStarted (childId : UInt32)
  | stopped
  deriving DecidableEq, Repr

/-- The id that a call has started. -/
def Report.started? : Report → Option UInt32
  | .started childId => some childId
  | _ => none

/-- The ids that were started since the last shutdown. -/
def startedSince (reports : List Report) : List UInt32 :=
  (reports.rtakeWhile (· ≠ .stopped)).filterMap Report.started?

/-- A supervisor among the processes that were launched and killed. -/
structure Session where
  supervisor : Supervisor
  /-- Every process that was launched so far. -/
  launched : List ChildProcess := []
  /-- Every kill so far. -/
  kills : List Kill := []
  /-- What the calls have come to. -/
  reports : List Report := []

namespace Session

/-- The processes that were killed. -/
def killed (s : Session) : List ChildProcess :=
  s.kills.map (·.process)

/-- The launcher makes a new process unless it refuses. -/
def launch (s : Session) (refusal : Launch → Option Failure) (asked : Launch) :
    Except Failure ChildProcess :=
  match refusal asked with
  | some e => .error e
  | none => .ok { name := asked.name, number := s.launched.length }

/-- What comes of starting a shard. -/
def start (s : Session) (childId : UInt32) (o : Options) (refusal : Launch → Option Failure) :
    Start :=
  s.supervisor.startChild childId o (s.launch refusal)

/-- The session after a call. -/
def step (s : Session) : Call → Session
  | .start childId o refusal =>
    let start := s.start childId o refusal
    let made := start.attempt.toList.filterMap fun asked => (s.launch refusal asked).toOption
    let report := match start.result with
      | .ok _ => .started childId
      | .error _ => .notStarted childId
    { s with
      supervisor := start.supervisor
      launched := s.launched ++ made
      reports := s.reports ++ [report] }
  | .shutdown kill =>
    let (kills, supervisor) := s.supervisor.killAll kill
    { s with supervisor, kills := s.kills ++ kills, reports := s.reports ++ [.stopped] }

/-- The session after some calls on a supervisor without shards. -/
def after (executable : String) (calls : List Call) : Session :=
  calls.foldl step { supervisor := { executable } }

/-- The process that the launcher makes next for a shard. -/
def next (s : Session) (childId : UInt32) : ChildProcess :=
  { name := processName childId, number := s.launched.length }

/-- The session after a start that came to nothing. -/
def unchanged (s : Session) (childId : UInt32) : Session :=
  { s with reports := s.reports ++ [.notStarted childId] }

/-- The session with one more running shard. -/
def grown (s : Session) (childId : UInt32) (o : Options) : Session :=
  { s with
    supervisor := s.supervisor.including o childId (s.next childId)
    launched := s.launched ++ [s.next childId]
    reports := s.reports ++ [.started childId] }

/-- The session with every running shard killed, whatever came of the kills. -/
def stopped (s : Session) (kill : ChildProcess → Except Failure Unit) : Session :=
  { s with
    supervisor := { s.supervisor with children := [] }
    kills := s.kills ++
      s.supervisor.processes.map fun process => { process, result := kill process }
    reports := s.reports ++ [.stopped] }

theorem refused_of_launch {s : Session} {refusal : Launch → Option Failure} {asked : Launch}
    {e : Failure} (h : s.launch refusal asked = .error e) : refusal asked = some e := by
  rw [launch] at h
  split at h
  case h_1 hrefused =>
    cases h
    exact hrefused
  case h_2 => cases h

theorem made_of_launch {s : Session} {refusal : Launch → Option Failure} {asked : Launch}
    {process : ChildProcess} (h : s.launch refusal asked = .ok process) :
    process = { name := asked.name, number := s.launched.length } := by
  rw [launch] at h
  split at h
  case h_1 => cases h
  case h_2 =>
    cases h
    rfl

/-- A start of a reserved or taken id launches nothing, a refused launch leaves nothing behind, and
otherwise the id gets a process of its own. -/
theorem step_start (s : Session) (childId : UInt32) (o : Options)
    (refusal : Launch → Option Failure) :
    ((childId = 0 ∨ childId ∈ s.supervisor.ids) ∧
      (s.start childId o refusal).attempt = none ∧
      (∃ e, (s.start childId o refusal).result = .error e) ∧
      s.step (.start childId o refusal) = s.unchanged childId) ∨
    (childId ≠ 0 ∧ childId ∉ s.supervisor.ids ∧
      (∃ e, refusal (s.supervisor.launchOf childId o) = some e ∧
        (s.start childId o refusal).result = .error e) ∧
      s.step (.start childId o refusal) = s.unchanged childId) ∨
    (childId ≠ 0 ∧ childId ∉ s.supervisor.ids ∧
      (s.start childId o refusal).result = .ok (ChildDescriptor.ofOptions childId o) ∧
      s.step (.start childId o refusal) = s.grown childId o) := by
  have houtcome := outcome_startChild s.supervisor childId o (s.launch refusal)
  simp only [step, start]
  generalize s.supervisor.startChild childId o (s.launch refusal) = start at houtcome
  cases houtcome with
  | rejected e hid => exact .inl ⟨hid, rfl, ⟨e, rfl⟩, by simp [unchanged]⟩
  | failed e hzero hfree hlaunch =>
      exact .inr (.inl ⟨hzero, hfree, ⟨e, refused_of_launch hlaunch, rfl⟩,
        by simp [unchanged, hlaunch, Except.toOption]⟩)
  | started process hzero hfree hlaunch =>
      have hprocess : process = s.next childId := made_of_launch hlaunch
      subst hprocess
      exact .inr (.inr ⟨hzero, hfree, rfl, by simp [grown, hlaunch, Except.toOption]⟩)

theorem step_shutdown (s : Session) (kill : ChildProcess → Except Failure Unit) :
    s.step (.shutdown kill) = s.stopped kill := by
  rw [step, killAll_eq]
  rfl

end Session

/-! ## What every call keeps -/

theorem startedSince_stopped (reports : List Report) :
    startedSince (reports ++ [.stopped]) = [] := by
  rw [startedSince, List.rtakeWhile_concat_neg _ _ _ (by simp)]
  rfl

theorem startedSince_started (reports : List Report) (childId : UInt32) :
    startedSince (reports ++ [.started childId]) = startedSince reports ++ [childId] := by
  rw [startedSince, List.rtakeWhile_concat_pos _ _ _ (by simp), List.filterMap_append]
  rfl

theorem startedSince_notStarted (reports : List Report) (childId : UInt32) :
    startedSince (reports ++ [.notStarted childId]) = startedSince reports := by
  rw [startedSince, List.rtakeWhile_concat_pos _ _ _ (by simp), List.filterMap_append]
  exact List.append_nil _

theorem processName_injective : Function.Injective processName := by
  intro i j h
  have hdigits : Decimal.text i.toNat = Decimal.text j.toNat :=
    (String.append_right_inj _).1 h
  have hread := congrArg (fun s : String => Decimal.ofChars? s.toList) hdigits
  simp only [Decimal.text, String.toList_ofList, Decimal.ofChars?_render] at hread
  exact UInt32.toNat_inj.1 (Option.some.inj hread)

/-- The books of a session are in order. -/
structure Session.Orderly (s : Session) : Prop where
  ascending : s.supervisor.ids.Pairwise (· < ·)
  zero_not_mem : 0 ∉ s.supervisor.ids
  ids_perm : s.supervisor.ids.Perm (startedSince s.reports)
  named : ∀ entry ∈ s.supervisor.children, entry.2.process.name = processName entry.1
  numbers : s.launched.map (·.number) = List.range s.launched.length
  launched_perm : s.launched.Perm (s.supervisor.processes ++ s.killed)

namespace Session

variable {s : Session}

theorem Orderly.unchanged (h : s.Orderly) (childId : UInt32) : (s.unchanged childId).Orderly :=
  { h with ids_perm := by rw [Session.unchanged, startedSince_notStarted]; exact h.ids_perm }

theorem Orderly.grown (h : s.Orderly) {childId : UInt32} (hzero : childId ≠ 0)
    (hfree : childId ∉ s.supervisor.ids) (o : Options) : (s.grown childId o).Orderly := by
  have hids : (s.grown childId o).supervisor.ids.Perm (childId :: s.supervisor.ids) :=
    keys_insertChild_perm _ _ _
  constructor
  case ascending => exact pairwise_insertChild h.ascending hfree _
  case zero_not_mem =>
    intro hmem
    rcases List.mem_cons.1 (hids.subset hmem) with heq | hmem
    · exact hzero heq.symm
    · exact h.zero_not_mem hmem
  case ids_perm =>
    rw [Session.grown, startedSince_started]
    exact hids.trans ((h.ids_perm.cons childId).trans (List.perm_append_singleton _ _).symm)
  case named =>
    intro entry hentry
    rcases List.mem_cons.1 ((insertChild_perm _ _ _).subset hentry) with rfl | hentry
    · rfl
    · exact h.named entry hentry
  case numbers =>
    rw [Session.grown, List.map_append, h.numbers, List.length_append, List.length_singleton,
      List.range_succ]
    rfl
  case launched_perm =>
    have hprocesses : (s.grown childId o).supervisor.processes.Perm
        (s.next childId :: s.supervisor.processes) := (insertChild_perm _ _ _).map _
    have hlaunched : (s.grown childId o).launched.Perm (s.next childId :: s.launched) :=
      List.perm_append_singleton _ _
    exact hlaunched.trans ((h.launched_perm.cons _).trans (hprocesses.append_right _).symm)

theorem Orderly.stopped (h : s.Orderly) (kill : ChildProcess → Except Failure Unit) :
    (s.stopped kill).Orderly := by
  constructor
  case ascending => exact .nil
  case zero_not_mem => exact List.not_mem_nil
  case ids_perm =>
    rw [Session.stopped, startedSince_stopped]
    exact .nil
  case named => exact nofun
  case numbers => exact h.numbers
  case launched_perm =>
    have hkilled : (s.stopped kill).killed = s.killed ++ s.supervisor.processes := by
      simp only [Session.stopped, killed, List.map_append, List.map_map]
      exact congrArg (s.killed ++ ·) (List.map_id _)
    rw [hkilled]
    exact h.launched_perm.trans List.perm_append_comm

theorem Orderly.step (h : s.Orderly) (call : Call) : (s.step call).Orderly := by
  cases call with
  | start childId o refusal =>
      rcases step_start s childId o refusal with
        ⟨-, -, -, hstep⟩ | ⟨-, -, -, hstep⟩ | ⟨hzero, hfree, -, hstep⟩
      · rw [hstep]
        exact h.unchanged childId
      · rw [hstep]
        exact h.unchanged childId
      · rw [hstep]
        exact h.grown hzero hfree o
  | shutdown kill =>
      rw [step_shutdown]
      exact h.stopped kill

theorem orderly_after (executable : String) (calls : List Call) :
    (after executable calls).Orderly := by
  induction calls using List.reverseRecOn with
  | nil => exact ⟨.nil, List.not_mem_nil, .nil, nofun, rfl, .nil⟩
  | append_singleton calls call ih =>
      rw [after, List.foldl_append]
      exact ih.step call

theorem Orderly.nodup_launched (h : s.Orderly) : s.launched.Nodup := by
  apply List.Nodup.of_map (·.number)
  rw [h.numbers]
  exact List.nodup_range

/-- A running id has exactly one process that was launched for it and not killed. -/
theorem Orderly.existsUnique_process (h : s.Orderly) {childId : UInt32}
    (hid : childId ∈ s.supervisor.ids) :
    ∃! process, process ∈ s.launched ∧ process ∉ s.killed ∧
      process.name = processName childId := by
  have hdisjoint := List.nodup_append.1 (h.launched_perm.nodup_iff.1 h.nodup_launched)
  have hkeys : (Keyed.keys s.supervisor.children).Nodup :=
    h.ascending.imp fun hlt heq => UInt32.ne_of_lt hlt heq
  obtain ⟨⟨k, child⟩, hentry, rfl⟩ := List.mem_map.1 hid
  have hrunning : child.process ∈ s.supervisor.processes := List.mem_map_of_mem hentry
  refine ⟨child.process, ⟨?launched, ?alive, h.named _ hentry⟩, ?unique⟩
  case launched => exact h.launched_perm.mem_iff.2 (List.mem_append_left _ hrunning)
  case alive => exact fun hkilled => hdisjoint.2.2 _ hrunning _ hkilled rfl
  case unique =>
    rintro process ⟨hlaunched, halive, hname⟩
    rcases List.mem_append.1 (h.launched_perm.mem_iff.1 hlaunched) with hother | hkilled
    · -- names tell ids apart, and an id has one entry
      obtain ⟨⟨k', child'⟩, hentry', rfl⟩ := List.mem_map.1 hother
      have hk : k' = k := processName_injective ((h.named _ hentry').symm.trans hname)
      subst hk
      have hget := (Keyed.mem_iff_get?_eq_some hkeys).1 hentry
      rw [(Keyed.mem_iff_get?_eq_some hkeys).1 hentry'] at hget
      exact congrArg RunningChild.process (Option.some.inj hget)
    · exact absurd hkilled halive

end Session

/-! ## Starting all shards of a parent -/

section StartAll

variable {s : Supervisor} {o : Options} {launch : Launch → Except Failure ChildProcess}

/-- The supervisor with a running shard more for each process. -/
def includingAll (s : Supervisor) (o : Options) (started : List (UInt32 × ChildProcess)) :
    Supervisor :=
  { s with
    children := s.children ++ started.map fun (id, process) =>
      (id, { descriptor := ChildDescriptor.ofOptions id o, process }) }

/-- Shards whose ids ascend and whose launches succeed are started one after the other. -/
theorem startAll_append {started : List (UInt32 × ChildProcess)} {rest : List UInt32}
    (hascending : (s.ids ++ (Keyed.keys started ++ rest)).Pairwise (· < ·))
    (hzero : 0 ∉ Keyed.keys started)
    (hlaunch : ∀ entry ∈ started, launch (s.launchOf entry.1 o) = .ok entry.2) :
    startAll s o launch (Keyed.keys started ++ rest) =
      startAll (s.includingAll o started) o launch rest := by
  induction started generalizing s with
  | nil => simp [includingAll, Keyed.keys]
  | cons entry started ih =>
      obtain ⟨id, process⟩ := entry
      obtain ⟨hne, hzero⟩ := not_or.1 (mt List.mem_cons.2 hzero)
      have hbelow : ∀ k ∈ s.ids, k < id := fun k hk =>
        (List.pairwise_append.1 hascending).2.2 k hk id List.mem_cons_self
      -- the id is above all running ones, so its shard comes last
      have hincluding : s.including o id process = s.includingAll o [(id, process)] :=
        congrArg (Supervisor.mk s.executable) (insertChild_of_forall_lt hbelow _)
      have hstart : s.startChild id o launch =
          { result := .ok (ChildDescriptor.ofOptions id o)
            attempt := some (s.launchOf id o)
            supervisor := s.includingAll o [(id, process)] } := by
        have hlaunched := hlaunch _ List.mem_cons_self
        have houtcome := outcome_startChild s id o launch
        generalize s.startChild id o launch = start at houtcome
        cases houtcome with
        | rejected e h =>
            rcases h with hid | hid
            · exact absurd hid.symm hne
            · exact absurd (hbelow id hid) (UInt32.lt_irrefl id)
        | failed e _ _ h => rw [hlaunched] at h; cases h
        | started process' _ _ h =>
            rw [hlaunched] at h
            cases h
            rw [hincluding]
      have hids : (s.includingAll o [(id, process)]).ids = s.ids ++ [id] := List.map_append
      have hrest := ih (s := s.includingAll o [(id, process)])
        (by rw [hids, List.append_assoc]; exact hascending) hzero
        fun entry hentry => hlaunch entry (List.mem_cons_of_mem _ hentry)
      change startAll s o launch (id :: (Keyed.keys started ++ rest)) = _
      rw [startAll, hstart]
      refine hrest.trans (congrArg (startAll · o launch rest) ?_)
      exact congrArg (Supervisor.mk s.executable) (List.append_assoc _ _ _)

/-- All launches succeed, or there is a first one that fails. -/
theorem launches_cases (run : UInt32 → Except Failure ChildProcess) (ids : List UInt32) :
    (∃ started, Keyed.keys started = ids ∧ ∀ entry ∈ started, run entry.1 = .ok entry.2) ∨
    ∃ started k rest e, ids = Keyed.keys started ++ k :: rest ∧
      (∀ entry ∈ started, run entry.1 = .ok entry.2) ∧ run k = .error e := by
  induction ids with
  | nil => exact .inl ⟨[], rfl, nofun⟩
  | cons id ids ih =>
      cases hrun : run id with
      | error e => exact .inr ⟨[], id, ids, e, rfl, nofun, hrun⟩
      | ok process =>
          have hcons : ∀ {started : List (UInt32 × ChildProcess)},
              (∀ entry ∈ started, run entry.1 = .ok entry.2) →
              ∀ entry ∈ (id, process) :: started, run entry.1 = .ok entry.2 :=
            fun h => List.forall_mem_cons.2 ⟨hrun, h⟩
          rcases ih with ⟨started, hkeys, hstarted⟩ | ⟨started, k, rest, e, hids, hstarted, hk⟩
          · exact .inl ⟨(id, process) :: started, congrArg (id :: ·) hkeys, hcons hstarted⟩
          · exact .inr ⟨(id, process) :: started, k, rest, e, congrArg (id :: ·) hids,
              hcons hstarted, hk⟩

/-- Shards that cannot all be started are all killed again. -/
theorem startAll_cases {ids : List UInt32} (hascending : (s.ids ++ ids).Pairwise (· < ·))
    (hzero : 0 ∉ ids) :
    (∃ started, Keyed.keys started = ids ∧
      (∀ entry ∈ started, launch (s.launchOf entry.1 o) = .ok entry.2) ∧
      startAll s o launch ids =
        { result := .ok (), supervisor := s.includingAll o started, killed := [] }) ∨
    ∃ started k rest e, ids = Keyed.keys started ++ k :: rest ∧
      (∀ entry ∈ started, launch (s.launchOf entry.1 o) = .ok entry.2) ∧
      launch (s.launchOf k o) = .error e ∧
      startAll s o launch ids =
        { result := .error e
          supervisor := { s with children := [] }
          killed := (s.includingAll o started).processes } := by
  rcases launches_cases (fun id => launch (s.launchOf id o)) ids with
    ⟨started, hkeys, hstarted⟩ | ⟨started, k, rest, e, hids, hstarted, hk⟩
  case inl =>
    subst hkeys
    rw [← List.append_nil (Keyed.keys started)] at hascending
    have hall := startAll_append hascending hzero hstarted
    rw [List.append_nil] at hall
    exact .inl ⟨started, rfl, hstarted, hall⟩
  case inr =>
    subst hids
    refine .inr ⟨started, k, rest, e, rfl, hstarted, hk, ?_⟩
    rw [startAll_append hascending (fun h => hzero (List.mem_append_left _ h)) hstarted, startAll]
    have hne : k ≠ 0 := fun h => hzero (by simp [h])
    have hfree : k ∉ (s.includingAll o started).ids := by
      have hids : (s.includingAll o started).ids = s.ids ++ Keyed.keys started := by
        simp [ids, includingAll, Keyed.keys, Function.comp_def]
      rw [← List.append_assoc] at hascending
      rw [hids]
      exact fun h => UInt32.lt_irrefl k
        ((List.pairwise_append.1 hascending).2.2 k h k List.mem_cons_self)
    have houtcome := outcome_startChild (s.includingAll o started) k o launch
    generalize (s.includingAll o started).startChild k o launch = start at houtcome ⊢
    cases houtcome with
    | rejected e h =>
        rcases h with h | h
        · exact absurd h hne
        · exact absurd h hfree
    | failed e' _ _ h => cases hk.symm.trans h; rfl
    | started process _ _ h => cases hk.symm.trans h

end StartAll

/-! ## The shards of a parent -/

theorem toNat_shardId {count : UInt32} {i : Nat} (h : i < count.toNat) :
    (UInt32.ofNat (i + 1)).toNat = i + 1 := by
  have := count.toNat_lt
  rw [UInt32.toNat_ofNat']
  omega

theorem pairwise_shardIds (count : UInt32) : (Server.shardIds count).Pairwise (· < ·) := by
  apply List.pairwise_map.2
  apply (List.pairwise_lt_range (n := count.toNat)).imp_of_mem
  intro i j hi hj hij
  rw [UInt32.lt_iff_toNat_lt, toNat_shardId (List.mem_range.1 hi),
    toNat_shardId (List.mem_range.1 hj)]
  omega

theorem zero_not_mem_shardIds (count : UInt32) : 0 ∉ Server.shardIds count := by
  intro h
  obtain ⟨i, hi, hzero⟩ := List.mem_map.1 h
  have := congrArg UInt32.toNat hzero
  rw [toNat_shardId (List.mem_range.1 hi)] at this
  contradiction

/-- Before an id come the ids from 1 on. -/
theorem shardIds_split {count k : UInt32} {before rest : List UInt32}
    (h : Server.shardIds count = before ++ k :: rest) :
    1 ≤ k ∧ k ≤ count ∧ before = Server.shardIds (k - 1) := by
  have hlength : before.length < count.toNat := by
    have := congrArg List.length h
    simp only [Server.shardIds, List.length_map, List.length_range, List.length_append,
      List.length_cons] at this
    omega
  have hk : k.toNat = before.length + 1 := by
    have hget : (Server.shardIds count)[before.length]? = some k := by
      rw [h, List.getElem?_append_right (Nat.le_refl _), Nat.sub_self, List.getElem?_cons_zero]
    rw [Server.shardIds, List.getElem?_map, List.getElem?_range hlength] at hget
    rw [← Option.some.inj hget, toNat_shardId hlength]
  have hpositive : 1 ≤ k := by
    rw [UInt32.le_iff_toNat_le, hk]
    exact Nat.le_add_left _ _
  refine ⟨hpositive, by rw [UInt32.le_iff_toNat_le, hk]; exact hlength, ?_⟩
  calc before
      = (Server.shardIds count).take before.length := by rw [h, List.take_left]
    _ = (List.range before.length).map fun i => UInt32.ofNat (i + 1) := by
        rw [Server.shardIds, ← List.map_take, List.take_range,
          Nat.min_eq_left (Nat.le_of_lt hlength)]
    _ = Server.shardIds (k - 1) := by
        rw [Server.shardIds, UInt32.toNat_sub_of_le _ _ hpositive, hk]
        rfl

/-- Either all shards of a parent run, or those below the first that cannot start are killed. -/
theorem startAll_shardIds (executable : String) (o : Options)
    (launch : Launch → Except Failure ChildProcess) (count : UInt32) :
    let none : Supervisor := { executable }
    let run := fun childId => launch (none.launchOf childId o)
    let all := startAll none o launch (Server.shardIds count)
    (∃ processes, (Server.shardIds count).map run = processes.map .ok ∧
      all.result = .ok () ∧ all.supervisor.ids = Server.shardIds count ∧
      all.supervisor.processes = processes ∧ all.killed = []) ∨
    ∃ k e processes, 1 ≤ k ∧ k ≤ count ∧
      (Server.shardIds (k - 1)).map run = processes.map .ok ∧ run k = .error e ∧
      all = { result := .error e, supervisor := none, killed := processes } := by
  intro none run all
  have hrun : ∀ {started : List (UInt32 × ChildProcess)},
      (∀ entry ∈ started, run entry.1 = .ok entry.2) →
      (Keyed.keys started).map run = (started.map (·.2)).map .ok := by
    intro started hstarted
    rw [Keyed.keys, List.map_map, List.map_map]
    exact List.map_congr_left hstarted
  have hids : ∀ started, (none.includingAll o started).ids = Keyed.keys started := by
    intro started
    simp [none, ids, includingAll, Keyed.keys, Function.comp_def]
  have hprocesses : ∀ started, (none.includingAll o started).processes = started.map (·.2) := by
    intro started
    simp [none, processes, shutdown, includingAll, Function.comp_def]
  have hascending : (none.ids ++ Server.shardIds count).Pairwise (· < ·) := pairwise_shardIds count
  rcases startAll_cases hascending (zero_not_mem_shardIds count) with
    ⟨started, hkeys, hstarted, hall⟩ | ⟨started, k, rest, e, hsplit, hstarted, hk, hall⟩
  case inl =>
    refine .inl ⟨started.map (·.2), hkeys ▸ hrun hstarted, ?_⟩
    simp only [all, hall, hids, hprocesses, hkeys, and_self]
  case inr =>
    obtain ⟨hpositive, hle, hbefore⟩ := shardIds_split hsplit
    refine .inr ⟨k, e, started.map (·.2), hpositive, hle, hbefore ▸ hrun hstarted, hk, ?_⟩
    simp only [all, hall, hprocesses, none]

/-! ## No process without an owner -/

/-- After any calls the running ids are those that were started since the last shutdown, every one
of them has one process, and every process that was launched is either running or was killed once. A
start that fails keeps nothing, a shutdown kills every running process in ascending order of the
ids, and a parent that cannot start a shard kills all that it started. -/
theorem processes_accounted (executable : String) (calls : List Call) :
    let s := Session.after executable calls
    (s.supervisor.ids.Pairwise (· < ·) ∧ 0 ∉ s.supervisor.ids ∧
      s.supervisor.ids.Perm (startedSince s.reports) ∧
      ∀ childId ∈ s.supervisor.ids, ∃! process, process ∈ s.launched ∧ process ∉ s.killed ∧
        process.name = processName childId) ∧
    (s.launched.Nodup ∧ s.launched.Perm (s.supervisor.processes ++ s.killed)) ∧
    (∀ childId o refusal,
      let start := s.start childId o refusal
      (childId = 0 ∨ childId ∈ s.supervisor.ids →
        start.attempt = none ∧ ∃ e, start.result = .error e) ∧
      (∀ e, start.result = .error e →
        s.step (.start childId o refusal) = s.unchanged childId) ∧
      (childId ≠ 0 → childId ∉ s.supervisor.ids →
        refusal (s.supervisor.launchOf childId o) = none →
        s.step (.start childId o refusal) = s.grown childId o)) ∧
    (∀ kill, s.step (.shutdown kill) = s.stopped kill ∧
      s.supervisor.processes.map (·.name) = s.supervisor.ids.map processName) ∧
    ∀ o launch count,
      let none : Supervisor := { executable }
      let run := fun childId => launch (none.launchOf childId o)
      let all := startAll none o launch (Server.shardIds count)
      (∃ processes, (Server.shardIds count).map run = processes.map .ok ∧
        all.result = .ok () ∧ all.supervisor.ids = Server.shardIds count ∧
        all.supervisor.processes = processes ∧ all.killed = []) ∨
      ∃ k e processes, 1 ≤ k ∧ k ≤ count ∧
        (Server.shardIds (k - 1)).map run = processes.map .ok ∧ run k = .error e ∧
        all = { result := .error e, supervisor := none, killed := processes } := by
  intro s
  have h : s.Orderly := Session.orderly_after executable calls
  refine ⟨⟨h.ascending, h.zero_not_mem, h.ids_perm, fun _ => h.existsUnique_process⟩,
    ⟨h.nodup_launched, h.launched_perm⟩, ?starts, ?shutdown, startAll_shardIds executable⟩
  case starts =>
    intro childId o refusal start
    rcases Session.step_start s childId o refusal with
      ⟨hid, hattempt, hresult, hstep⟩ | ⟨hzero, hfree, ⟨e, hrefused, -⟩, hstep⟩ |
        ⟨hzero, hfree, hresult, hstep⟩
    case inl =>
      exact ⟨fun _ => ⟨hattempt, hresult⟩, fun _ _ => hstep,
        fun hzero hfree _ => (hid.elim hzero hfree).elim⟩
    case inr.inl =>
      refine ⟨fun hid => (hid.elim hzero hfree).elim, fun _ _ => hstep, fun _ _ hmade => ?_⟩
      rw [hmade] at hrefused
      cases hrefused
    case inr.inr =>
      refine ⟨fun hid => (hid.elim hzero hfree).elim, fun e he => ?_, fun _ _ _ => hstep⟩
      cases hresult.symm.trans he
  case shutdown =>
    intro kill
    refine ⟨s.step_shutdown kill, ?_⟩
    simp only [processes, Supervisor.shutdown, ids, Keyed.keys, List.map_map]
    exact List.map_congr_left h.named

/-- Shards 2 and 1 run, 0, 2 again and 3 do not start, a kill fails, and 2 starts once more. -/
theorem accounted_after_failed_kill :
    let willing := fun _ : Launch => (none : Option Failure)
    let calls : List Call :=
      [.start 0 {} willing, .start 2 {} willing, .start 1 {} willing, .start 2 {} willing,
        .start 3 {} fun asked => some (.spawn (.launch asked.name "refused")),
        .shutdown fun process =>
          if process.number = 1 then .error (.spawn (.launch process.name "gone")) else .ok (),
        .start 2 {} willing]
    let s := Session.after "/bin/soroban" calls
    (s.supervisor.ids = [2] ∧ s.killed.map (·.number) = [1, 0] ∧ s.launched.length = 3) ∧
    s.launched.Perm (s.supervisor.processes ++ s.killed) :=
  ⟨by decide, (processes_accounted "/bin/soroban" _).2.1.2⟩

end Supervisor

end GossipDirectory
