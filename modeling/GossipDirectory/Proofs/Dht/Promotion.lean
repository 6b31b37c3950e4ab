import GossipDirectory.Proofs.Swarm.WorkerHistory
import GossipDirectory.Swarm.Spawn

/-!
# When a node serves lookups

A listen address matches a bootstrap address if its segments stand for the first segments of that
one. A node serves lookups as soon as an address that it listens on matches a bootstrap address, be
it the configured address or one that the network reports later, and it never stops to serve. The
order and the repetition of addresses make no difference, nor does anything else that happens to the
node, and the lookup protocol is always held to the mode of the node.

## Implementation notes

What is true of one input is true of a whole history: `Promotes` says for either of them what the
addresses that were reported in it do to the mode, and it is closed under going on.
-/

namespace GossipDirectory

/-! ## Matching addresses -/

/-- A segment of a listen address stands for itself, and for every segment of its family if it is
the unspecified network address. -/
def Segment.StandsFor (own other : Segment) : Prop :=
  own = other ∨ (own = .ip4 Ipv4.unspecified ∧ ∃ ip, other = .ip4 ip) ∨
    (own = .ip6 Ipv6.unspecified ∧ ∃ ip, other = .ip6 ip)

theorem Segment.covers_iff {own other : Segment} :
    own.covers other = true ↔ own.StandsFor other := by
  unfold covers StandsFor
  split
  case h_1 ip other => simp [or_comm]
  case h_2 ip other => simp [or_comm]
  case h_3 own other h4 h6 =>
    rw [decide_eq_true_eq]
    refine ⟨.inl, ?_⟩
    rintro (heq | ⟨hown, ip, hother⟩ | ⟨hown, ip, hother⟩)
    · exact heq
    · exact absurd hother (h4 _ ip hown)
    · exact absurd hother (h6 _ ip hown)

namespace Multiaddr

/-- The segments of a listen address stand for the first segments of another address. -/
structure Matches (own other : Multiaddr) : Prop where
  length_le : own.length ≤ other.length
  standsFor : ∀ i (h : i < own.length) (h' : i < other.length), own[i].StandsFor other[i]

theorem matches_nil (other : Multiaddr) : Matches [] other :=
  ⟨Nat.zero_le _, fun _ h => absurd h (Nat.not_lt_zero _)⟩

theorem not_matches_nil (s : Segment) (own : Multiaddr) : ¬Matches (s :: own) [] :=
  fun h => absurd h.length_le (Nat.not_succ_le_zero _)

theorem matches_cons_cons {s t : Segment} {own other : Multiaddr} :
    Matches (s :: own) (t :: other) ↔ s.StandsFor t ∧ Matches own other := by
  constructor
  · rintro ⟨hlength, hsegments⟩
    refine ⟨hsegments 0 (Nat.succ_pos _) (Nat.succ_pos _), Nat.le_of_succ_le_succ hlength, ?_⟩
    exact fun i h h' => hsegments (i + 1) (Nat.succ_lt_succ h) (Nat.succ_lt_succ h')
  · rintro ⟨hfirst, hlength, hsegments⟩
    refine ⟨Nat.succ_le_succ hlength, fun i h h' => ?_⟩
    cases i with
    | zero => exact hfirst
    | succ i => exact hsegments i (Nat.lt_of_succ_lt_succ h) (Nat.lt_of_succ_lt_succ h')

theorem startsInside_iff {own other : Multiaddr} :
    own.startsInside other = true ↔ own.Matches other := by
  induction own generalizing other with
  | nil => exact iff_of_true rfl (matches_nil other)
  | cons s own ih =>
      cases other with
      | nil => exact iff_of_false Bool.false_ne_true (not_matches_nil s own)
      | cons t other =>
          rw [startsInside, Bool.and_eq_true, Segment.covers_iff, ih, matches_cons_cons]

end Multiaddr

theorem nodeRole_eq_bootstrap_iff {addresses bootstrap : List Multiaddr} :
    nodeRole addresses bootstrap = .bootstrap ↔
      ∃ own ∈ addresses, ∃ b ∈ bootstrap, own.Matches b := by
  rw [nodeRole, ite_eq_left_iff]
  simp only [List.any_eq_true, Multiaddr.startsInside_iff, reduceCtorEq, imp_false, not_not]
  constructor
  · rintro ⟨b, hb, own, hown, hmatches⟩
    exact ⟨own, hown, b, hb, hmatches⟩
  · rintro ⟨own, hown, b, hb, hmatches⟩
    exact ⟨b, hb, own, hown, hmatches⟩

theorem dhtMode_eq_server_iff {role : NodeRole} {serverMode : Bool} :
    dhtMode role serverMode = .server ↔ role = .bootstrap := by
  cases role <;> cases serverMode <;> decide

theorem dhtMode_of_ne_server {role : NodeRole} {serverMode : Bool}
    (h : dhtMode role serverMode ≠ .server) :
    dhtMode role serverMode = if serverMode then .auto else .client := by
  cases role with
  | bootstrap => exact absurd rfl h
  | regular => rfl

namespace Worker

variable {w : Worker} {h : List Input}

/-- A task that begins with a listen address, bootstrap addresses and a choice of mode. -/
structure Configured (w : Worker) (listen : Multiaddr) (bootstrap : List Multiaddr)
    (serverMode : Bool) : Prop where
  bootstrap_eq : w.bootstrap = bootstrap
  mode_eq : w.mode = dhtMode (nodeRole [listen] bootstrap) serverMode

/-- The addresses that an input reports as listened on. -/
def Input.listened : Input → List Multiaddr
  | .report _ _ (.listening address) => [address]
  | _ => []

/-- The addresses that were reported as listened on. -/
def reported (h : List Input) : List Multiaddr :=
  h.flatMap Input.listened

/-- What the lookup protocol is held to after some requests. -/
def heldTo (first : Option LookupMode) (requests : List Request) : Option LookupMode :=
  requests.foldl (fun held r => match r with | .setMode mode => mode | _ => held) first

theorem heldTo_of_silent {requests : List Request} (hsilent : ∀ mode, .setMode mode ∉ requests)
    (first : Option LookupMode) : heldTo first requests = first := by
  induction requests with
  | nil => rfl
  | cons r rest ih =>
      have hrest := ih fun mode hmem => hsilent mode (List.mem_cons_of_mem r hmem)
      cases r with
      | setMode mode => exact absurd List.mem_cons_self (hsilent mode)
      | _ => exact hrest

/-- What the addresses that the network reported have made of the mode of a task. -/
structure Promotes (w : Worker) (addresses : List Multiaddr) (outcome : Worker × List Request) :
    Prop where
  bootstrap_eq : outcome.1.bootstrap = w.bootstrap
  serves_iff : outcome.1.mode = .server ↔
    w.mode = .server ∨ ∃ address ∈ addresses, ∃ b ∈ w.bootstrap, address.Matches b
  mode_eq : outcome.1.mode ≠ .server → outcome.1.mode = w.mode
  heldTo_eq : heldTo w.mode.lookupMode? outcome.2 = outcome.1.mode.lookupMode?

/-! ## One input -/

/-- What leaves the mode alone promotes nothing. -/
theorem promotes_of_silent {outcome : Worker × List Request}
    (hbootstrap : outcome.1.bootstrap = w.bootstrap) (hmode : outcome.1.mode = w.mode)
    (hsilent : ∀ mode, .setMode mode ∉ outcome.2) : Promotes w [] outcome where
  bootstrap_eq := hbootstrap
  serves_iff := by simp [hmode]
  mode_eq _ := hmode
  heldTo_eq := by rw [heldTo_of_silent hsilent, hmode]

theorem promotes_promote (w : Worker) (address : Multiaddr) :
    Promotes w [address] (w.promote address) := by
  -- The role of the one address is a statement about the bootstrap addresses alone.
  have hrole := @nodeRole_eq_bootstrap_iff [address] w.bootstrap
  simp only [List.mem_singleton, exists_eq_left] at hrole
  unfold promote promotedMode?
  by_cases hserves : w.mode = .server
  · rw [if_pos hserves]
    exact ⟨rfl, by simp [hserves], fun _ => rfl, rfl⟩
  · rw [if_neg hserves]
    cases hr : nodeRole [address] w.bootstrap with
    | bootstrap => exact ⟨rfl, by simpa using .inr (hrole.1 hr), fun h => absurd rfl h, rfl⟩
    | regular =>
        have hno : ¬∃ b ∈ w.bootstrap, address.Matches b := by
          rw [← hrole, hr]
          decide
        exact ⟨rfl, by simpa [hserves] using hno, fun _ => rfl, rfl⟩

theorem promotes_settleDial (w : Worker) (id : ConnectionId) (result : Except Failure Unit) :
    Promotes w [] (w.settleDial id result) := by
  rw [settleDial_eq]
  exact promotes_of_silent rfl rfl (by simp)

theorem promotes_opened (w : Worker) (id : ConnectionId) (peer : PeerId)
    (dialed : Option Multiaddr) (now : Millis) (meshPeers : List PeerId) :
    Promotes w [] (w.opened id peer dialed now meshPeers) := by
  have hstate := opened_eq w id peer dialed now meshPeers
  refine promotes_of_silent (by rw [hstate]) (by rw [hstate]) fun mode hmem => ?_
  rw [requests_opened, settleDial_eq, List.mem_append] at hmem
  rcases hmem with hmem | hmem
  · simp at hmem
  · split at hmem
    · simp [trim] at hmem
    · simp at hmem

theorem listened_of_news {event : SwarmEvent} (h : event.isNews = true) (now : Millis)
    (meshPeers : List PeerId) : (Input.report now meshPeers event).listened = [] := by
  cases event with
  | listening address => cases h
  | _ => rfl

theorem promotes_handleCommand (w : Worker) (answer : DialAnswer) (c : Command) :
    Promotes w [] (w.handleCommand answer c) := by
  obtain ⟨⟨pendingDials, hstate⟩, hresponses⟩ := handleCommand_spec w answer c
  exact promotes_of_silent (by rw [hstate]) (by rw [hstate]) fun mode hmem =>
    absurd (hresponses _ hmem) Bool.false_ne_true

theorem promotes_handleEvent (w : Worker) (now : Millis) (meshPeers : List PeerId)
    (event : SwarmEvent) :
    Promotes w (Input.report now meshPeers event).listened (w.handleEvent now meshPeers event) := by
  cases hnews : event.isNews with
  | true =>
      obtain ⟨⟨book, rendezvous, hstate⟩, herrands⟩ := handleEvent_of_news hnews w now meshPeers
      rw [listened_of_news hnews]
      exact promotes_of_silent (by rw [hstate]) (by rw [hstate]) fun mode hmem =>
        absurd (herrands _ hmem) Bool.false_ne_true
  | false =>
      cases event with
      | listening address =>
          obtain ⟨listening, heq⟩ := exists_listening_eq w now meshPeers address
          obtain ⟨hbootstrap, hserves, hmode, hheld⟩ :=
            promotes_promote { w with listening } address
          rw [heq]
          exact ⟨hbootstrap, hserves, hmode, hheld⟩
      | established id peer dialed => exact promotes_opened w id peer dialed now meshPeers
      | closed id peer remaining =>
          obtain ⟨connections, heq⟩ := exists_closed_eq w now meshPeers id peer remaining
          rw [heq]
          exact promotes_of_silent rfl rfl (by simp)
      | dialFailed id peer failure =>
          obtain ⟨book, heq⟩ := exists_dialFailed_eq w id peer failure
          obtain ⟨hbootstrap, hserves, hmode, hheld⟩ :=
            promotes_settleDial { w with book } id (.error (.transport failure.cause))
          rw [handleEvent, heq]
          exact ⟨hbootstrap, hserves, hmode, hheld⟩
      | _ => cases hnews

/-- An input promotes the task for the address that it reports, and for nothing else. -/
theorem promotes_handle (w : Worker) (i : Input) : Promotes w i.listened (w.handle i) := by
  cases i with
  | command answer c => exact promotes_handleCommand w answer c
  | report now meshPeers event => exact promotes_handleEvent w now meshPeers event
  | advertise query => exact promotes_of_silent rfl rfl (by simp [handle, advertise])
  | trim now meshPeers => exact promotes_of_silent rfl rfl (by simp [handle, trim])

/-! ## A history -/

/-- Whatever goes on after a promotion promotes for the addresses of both. -/
theorem Promotes.trans {before after : List Multiaddr} {w₁ w₂ : Worker} {r₁ r₂ : List Request}
    (h₁ : Promotes w before (w₁, r₁)) (h₂ : Promotes w₁ after (w₂, r₂)) :
    Promotes w (before ++ after) (w₂, r₁ ++ r₂) where
  bootstrap_eq := h₂.bootstrap_eq.trans h₁.bootstrap_eq
  serves_iff := by
    have hbootstrap : w₁.bootstrap = w.bootstrap := h₁.bootstrap_eq
    rw [h₂.serves_iff, h₁.serves_iff, hbootstrap]
    simp only [List.mem_append, or_and_right, exists_or, or_assoc]
  mode_eq hnot := by
    have hmode : w₂.mode = w₁.mode := h₂.mode_eq hnot
    exact hmode.trans (h₁.mode_eq fun hserves => hnot (hmode.trans hserves))
  heldTo_eq := by
    have hfirst : heldTo w.mode.lookupMode? r₁ = w₁.mode.lookupMode? := h₁.heldTo_eq
    rw [heldTo, List.foldl_append, ← heldTo, ← heldTo, hfirst]
    exact h₂.heldTo_eq

/-- A history promotes the task for the addresses that were reported in it. -/
theorem promotes_after (w : Worker) (h : List Input) :
    Promotes w (reported h) (w.after h, w.requested h) := by
  induction h generalizing w with
  | nil => exact promotes_of_silent rfl rfl (by simp [requested])
  -- The first input promotes for what it reports, the rest goes on from there.
  | cons i rest ih => exact (promotes_handle w i).trans (ih (w.handle i).1)

/-- Nothing was reported, so nothing has changed. -/
theorem Promotes.same {outcome : Worker × List Request} (h : Promotes w [] outcome) :
    outcome.1.mode = w.mode ∧ outcome.1.bootstrap = w.bootstrap := by
  refine ⟨?_, h.bootstrap_eq⟩
  by_cases hserves : outcome.1.mode = .server
  · rw [hserves]
    exact (h.serves_iff.1 hserves).elim Eq.symm nofun
  · exact h.mode_eq hserves

/-! ## A task that is brought up -/

section Spawn

variable {o : Options} {identity : Identity} {bind : UInt16 → Bool} {s : SwarmSettings}
  {m : Machine} {draws : List Nat}

theorem listened_dialReport (m : Machine) (now : Millis) (id : ConnectionId) (peer : PeerId)
    (addresses : List Multiaddr) :
    (Input.report now [] (dialReport m id peer addresses)).listened = [] := by
  unfold dialReport
  split
  · rfl
  · rfl

/-- To meet a bootstrap peer is no reason to serve. -/
theorem same_meetBootstrap (m : Machine) (w : Worker)
    (entry : (PeerId × Multiaddr) × ConnectionId) :
    (meetBootstrap m w entry).mode = w.mode ∧
      (meetBootstrap m w entry).bootstrap = w.bootstrap := by
  obtain ⟨⟨peer, address⟩, id⟩ := entry
  unfold meetBootstrap
  dsimp only
  split
  case isTrue => exact ⟨rfl, rfl⟩
  case isFalse =>
    have hrouted := promotes_handleEvent w 0 [] (.routed peer [address] none)
    have hdialed := promotes_handleEvent (w.handleEvent 0 [] (.routed peer [address] none)).1 0 []
      (dialReport m id peer [address])
    rw [listened_dialReport] at hdialed
    exact (hrouted.trans hdialed).same

theorem same_foldl_meetBootstrap (m : Machine) (w : Worker)
    (entries : List ((PeerId × Multiaddr) × ConnectionId)) :
    (entries.foldl (meetBootstrap m) w).mode = w.mode ∧
      (entries.foldl (meetBootstrap m) w).bootstrap = w.bootstrap := by
  induction entries generalizing w with
  | nil => exact ⟨rfl, rfl⟩
  | cons entry rest ih =>
      obtain ⟨hmode, hbootstrap⟩ := same_meetBootstrap m w entry
      obtain ⟨hmodes, hbootstraps⟩ := ih (meetBootstrap m w entry)
      exact ⟨hmodes.trans hmode, hbootstraps.trans hbootstrap⟩

/-- A task is brought up in the mode of its settings, in which it enters the lookup network. -/
theorem mode_of_spawn (hw : Worker.spawn s m draws = .ok w) :
    w.mode = s.mode ∧ w.bootstrap = s.bootstrap ∧
      ∃ dht, Dht.enter s.identity.peer w.mode w.bootstrap draws = .ok dht := by
  unfold spawn at hw
  obtain ⟨connections, -, hw⟩ := bind_eq_ok.1 hw
  obtain ⟨-, -, hw⟩ := bind_eq_ok.1 hw
  obtain ⟨dht, hdht, hw⟩ := bind_eq_ok.1 hw
  split at hw
  case isTrue => cases hw
  case isFalse =>
    cases hw
    obtain ⟨hmode, hbootstrap⟩ := same_foldl_meetBootstrap m _ dht.peers.zipIdx
    rw [hmode, hbootstrap]
    exact ⟨rfl, rfl, dht, hdht⟩

theorem mode_of_ofOptions (hs : SwarmSettings.ofOptions o identity bind = .ok s) :
    s.mode = dhtMode (nodeRole [s.listen] s.bootstrap) o.p2p.dhtServerMode := by
  unfold SwarmSettings.ofOptions at hs
  obtain ⟨⟨listen, proxy⟩, -, hs⟩ := bind_eq_ok.1 hs
  obtain ⟨bootstrap, -, hs⟩ := bind_eq_ok.1 hs
  cases hs
  rfl

theorem configured_of_spawn (hs : SwarmSettings.ofOptions o identity bind = .ok s)
    (hw : Worker.spawn s m draws = .ok w) :
    w.Configured s.listen s.bootstrap o.p2p.dhtServerMode := by
  obtain ⟨hmode, hbootstrap, -⟩ := mode_of_spawn hw
  exact ⟨hbootstrap, hmode.trans (mode_of_ofOptions hs)⟩

end Spawn

/-! ## The mode of a node -/

variable {listen : Multiaddr} {bootstrap : List Multiaddr} {serverMode : Bool}

theorem Configured.serves_iff (hw : w.Configured listen bootstrap serverMode) (h : List Input) :
    (w.after h).mode = .server ↔
      ∃ own ∈ listen :: reported h, ∃ b ∈ bootstrap, own.Matches b := by
  rw [(promotes_after w h).serves_iff, hw.mode_eq, dhtMode_eq_server_iff, nodeRole_eq_bootstrap_iff,
    hw.bootstrap_eq]
  simp

theorem Configured.mode_of_not_serves (hw : w.Configured listen bootstrap serverMode)
    (hnot : (w.after h).mode ≠ .server) :
    (w.after h).mode = if serverMode then .auto else .client := by
  have hmode : (w.after h).mode = w.mode := (promotes_after w h).mode_eq hnot
  rw [hmode, hw.mode_eq] at hnot ⊢
  exact dhtMode_of_ne_server hnot

/-- A node serves lookups exactly if it is configured to listen on an address that matches a
bootstrap address or was reported to do so, and is otherwise in the mode that was chosen. The lookup
protocol is held to the mode of the node from the moment the lookup network is entered. A node that
serves goes on to serve, and only which addresses there are decides. This is so for every node that
is brought up from options. -/
theorem mode_after_reports (hw : w.Configured listen bootstrap serverMode) (h : List Input) :
    ((w.after h).mode = .server ↔
      ∃ own ∈ listen :: reported h, ∃ b ∈ bootstrap, own.Matches b) ∧
    ((w.after h).mode ≠ .server →
      (w.after h).mode = w.mode ∧ w.mode = if serverMode then .auto else .client) ∧
    (∀ me draws dht, Dht.enter me w.mode bootstrap draws = .ok dht →
      heldTo dht.lookupMode (w.requested h) = (w.after h).mode.lookupMode?) ∧
    (∀ more, (w.after h).mode = .server → (w.after (h ++ more)).mode = .server) ∧
    (∀ (w' : Worker) (bootstrap' : List Multiaddr) (h' : List Input),
      w'.Configured listen bootstrap' serverMode → (∀ b, b ∈ bootstrap' ↔ b ∈ bootstrap) →
        (∀ own, own ∈ reported h' ↔ own ∈ reported h) →
          (w'.after h').mode = (w.after h).mode) ∧
    ∀ (o : Options) (identity : Identity) (bind : UInt16 → Bool) (s : SwarmSettings) (m : Machine)
      (draws : List Nat) (started : Worker), SwarmSettings.ofOptions o identity bind = .ok s →
        Worker.spawn s m draws = .ok started →
          started.Configured s.listen s.bootstrap o.p2p.dhtServerMode ∧
            ∃ dht, Dht.enter s.identity.peer started.mode s.bootstrap draws = .ok dht := by
  refine ⟨hw.serves_iff h, fun hnot => ?mode, fun me draws dht hdht => ?held,
    fun more hserves => ?kept, fun w' bootstrap' h' hw' hbootstrap hreported => ?same,
    fun o identity bind s m draws started hs hspawn => ?start⟩
  case mode =>
    have hmode : (w.after h).mode = w.mode := (promotes_after w h).mode_eq hnot
    exact ⟨hmode, hmode.symm.trans (hw.mode_of_not_serves hnot)⟩
  case held =>
    have hentered : dht.lookupMode = w.mode.lookupMode? := by
      obtain ⟨peers, -, hpure⟩ := bind_eq_ok.1 hdht
      cases hpure
      rfl
    rw [hentered]
    exact (promotes_after w h).heldTo_eq
  case kept =>
    have hmore := (promotes_after (w.after h) more).serves_iff.2 (.inl hserves)
    rwa [after, List.foldl_append]
  case same =>
    have hserves : (w'.after h').mode = .server ↔ (w.after h).mode = .server := by
      rw [hw'.serves_iff, hw.serves_iff]
      simp only [List.mem_cons, hbootstrap, hreported]
    by_cases hnow : (w.after h).mode = .server
    · rw [hnow]
      exact hserves.2 hnow
    · rw [hw.mode_of_not_serves hnow]
      exact hw'.mode_of_not_serves fun hnow' => hnow (hserves.1 hnow')
  case start =>
    obtain ⟨-, hbootstrap, dht, hdht⟩ := mode_of_spawn hspawn
    rw [hbootstrap] at hdht
    exact ⟨configured_of_spawn hs hspawn, dht, hdht⟩

/-- A task that listens on every interface, at a port that is chosen for it. Its bootstrap address
turns out to be its own. -/
def everywhere : Worker :=
  { newcomer ⟨PeerId.identityCode, [0]⟩ 1 9 with
    mode := .client
    bootstrap := [[.ip4 ⟨10, 0, 0, 1⟩, .port .tcp 1042, .p2p ⟨PeerId.identityCode, [0]⟩]] }

/-- The report of an interface that is listened on at the chosen port. -/
def interface (ip : Ipv4) : Input :=
  .report 0 [] (.listening [.ip4 ip, .port .tcp 1042])

/-- Loopback does not match, however often it is reported. With the bootstrap address the task turns
into a server, which it remains. -/
theorem everywhere_serves :
    let seen := [interface Ipv4.loopback, .advertise 1, interface Ipv4.loopback]
    let more := [interface ⟨10, 0, 0, 1⟩, interface ⟨192, 168, 1, 5⟩]
    everywhere.Configured [.ip4 Ipv4.unspecified, .port .tcp 0] everywhere.bootstrap false ∧
      (everywhere.after seen).mode = .client ∧ (everywhere.after (seen ++ more)).mode = .server ∧
        heldTo (some .client) (everywhere.requested (seen ++ more)) = some .server := by
  intro seen more
  have hw : everywhere.Configured [.ip4 Ipv4.unspecified, .port .tcp 0] everywhere.bootstrap
      false := ⟨rfl, by decide⟩
  have hseen : (everywhere.after seen).mode ≠ .server := by decide
  have hmatches : Multiaddr.Matches [.ip4 ⟨10, 0, 0, 1⟩, .port .tcp 1042]
      [.ip4 ⟨10, 0, 0, 1⟩, .port .tcp 1042, .p2p ⟨PeerId.identityCode, [0]⟩] :=
    Multiaddr.startsInside_iff.1 (by decide)
  have hserves := (mode_after_reports hw (seen ++ more)).1.2
    ⟨_, by decide, _, List.mem_singleton_self _, hmatches⟩
  refine ⟨hw, ((mode_after_reports hw seen).2.1 hseen).1, hserves, ?_⟩
  have hheld := (mode_after_reports hw (seen ++ more)).2.2.1 everywhere.me []
    { localPeer := everywhere.me, mode := .client, peers := _ } rfl
  rwa [hserves] at hheld

end Worker

end GossipDirectory
