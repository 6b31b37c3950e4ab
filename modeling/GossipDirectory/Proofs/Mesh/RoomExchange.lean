import GossipDirectory.Mesh.Room
import GossipDirectory.Proofs.Envelope.RoundTrip
import GossipDirectory.Proofs.Json.PlainText
import GossipDirectory.Proofs.Mesh.ReceiveExactness
import Mathlib.Data.List.Basic

/-!
# What the nodes of a room hear of each other

Publishing an envelope never fails. The mesh may carry what was published wherever and as often as
it likes: what a node hands over is what the copies that came to it first hold, one by one, without
those that it forwarded or wrote itself.

## Implementation notes

Every node of the room goes through a run of its receive loop, in which what the mesh carries
arrives. What holds of the loop by itself therefore holds in the room.
-/

namespace GossipDirectory

namespace Publisher

theorem isText_toBytes (m : Message) : Utf8.IsText m.toBytes := by
  apply Json.isText_enclosed (by decide) (by decide)
  intro piece hpiece
  simp only [List.mem_cons, List.not_mem_nil, or_false] at hpiece
  rcases hpiece with rfl | rfl
  · exact Json.isText_memberBytes _ (Json.isText_stringBytes _)
  · exact Json.isText_memberBytes _ (Json.isText_toBytes _)

/-- The publication of an envelope never fails; a network is handed its written form, which is the
encoding of a text that is not empty. -/
theorem publishMessage_eq (p : Publisher) (m : Message) :
    ∃ text, text ≠ "" ∧ Utf8.encode text = m.toBytes ∧
      p.publishMessage m = .ok (if p.connected then some m.toBytes else none) := by
  obtain ⟨text, hdecode, hencode⟩ := (isText_toBytes m).decode?
  have hne : text ≠ "" := by
    rintro rfl
    cases hencode
  refine ⟨text, hne, hencode, ?_⟩
  have htext : textOf m = .ok text := by
    rw [textOf, hdecode]
  have hpublish : p.publishMessage m = p.publish text := by
    rw [publishMessage, htext]
    rfl
  rw [hpublish, publish, if_neg hne, hencode]
  split
  · rfl
  · rfl

end Publisher

namespace ReceiveLoop.Exchange

theorem envelopes_eq_filterMap (me : PeerId) (gossip : List InboundGossip) :
    envelopes me gossip = gossip.filterMap (accepted? me) := by
  induction gossip with
  | nil => rfl
  | cons g rest ih =>
      have happend := envelopes_append me [g] rest
      rw [envelopes_singleton, ih] at happend
      rw [← List.singleton_append, happend, List.filterMap_append]
      cases h : accepted? me g with
      | none => simp [h]
      | some m => simp [h]

/-- What an event brings to the loop. -/
def brought : Event → List InboundGossip
  | .arrive g => [g]
  | _ => []

/-- Only the network itself closes the input. -/
theorem fed_of_step {x y : Exchange} {e : Event} (h : step x e = some y) (he : e ≠ .closeInput) :
    y.loop.inbound.fed = x.loop.inbound.fed := by
  cases e with
  | loop a =>
      obtain ⟨t, ht, rfl⟩ := Option.map_eq_some_iff.1 h
      cases steps_of_step ht with
      | accept g inbound m hstage hreceive =>
          rw [(Channel.receive?_eq_some_iff.1 hreceive).2]
      | skip g inbound hstage hreceive =>
          rw [(Channel.receive?_eq_some_iff.1 hreceive).2]
      | _ => rfl
  | arrive g =>
      simp only [step, Option.ite_none_right_eq_some, Option.map_eq_some_iff] at h
      obtain ⟨-, inbound, hsend, rfl⟩ := h
      rw [(Channel.send?_eq_some_iff.1 hsend).2.2]
  | closeInput => exact absurd rfl he
  | take =>
      obtain ⟨⟨m, delivery⟩, -, rfl⟩ := Option.map_eq_some_iff.1 h
      rfl
  | cancel =>
      cases h
      rfl

end ReceiveLoop.Exchange

namespace Room

open ReceiveLoop (Exchange Event)

/-- A room whose nodes have just joined: their peers, and the sizes of their queues. -/
def launch (plan : List (PeerId × Nat × Nat)) : State where
  nodes := plan.map fun (me, inboundSize, deliverySize) =>
    { me, inbound := { capacity := inboundSize }, delivery := { capacity := deliverySize } }

/-! ## What was published and carried -/

/-- What the nodes published, in order. -/
def publications (plan : List (PeerId × Nat × Nat)) (actions : List Action) : List Publication :=
  actions.filterMap fun
    | .publish i m => (plan[i]?).map fun node =>
      { author := node.1, message := m, data := m.toBytes }
    | _ => none

theorem publications_append (plan : List (PeerId × Nat × Nat)) (actions more : List Action) :
    publications plan (actions ++ more) = publications plan actions ++ publications plan more :=
  List.filterMap_append

/-- A publication was made by the node that is its author. -/
theorem exists_publish_of_mem {plan : List (PeerId × Nat × Nat)} {actions : List Action}
    {p : Publication} (h : p ∈ publications plan actions) :
    ∃ j sizes, .publish j p.message ∈ actions ∧ plan[j]? = some (p.author, sizes) := by
  obtain ⟨a, ha, hmade⟩ := List.mem_filterMap.1 h
  cases a with
  | publish j m =>
      obtain ⟨⟨author, sizes⟩, hj, rfl⟩ := Option.map_eq_some_iff.1 hmade
      exact ⟨j, sizes, ha, hj⟩
  | _ => cases hmade

/-- What the mesh carried to a node, in order: the places of publications, with forwarders. -/
def carried (i : Nat) (actions : List Action) : List (Nat × PeerId) :=
  actions.filterMap fun
    | .carry p j forwarder => if j = i then some (p, forwarder) else none
    | _ => none

theorem carried_append (i : Nat) (actions more : List Action) :
    carried i (actions ++ more) = carried i actions ++ carried i more :=
  List.filterMap_append

/-- A copy of a publication, as a node gets it. -/
def Publication.copy (forwarder : PeerId) (p : Publication) : InboundGossip :=
  { forwarder, author := some p.author, data := p.data }

/-- The copies that a node gets. -/
def copies (published : List Publication) (carried : List (Nat × PeerId)) : List InboundGossip :=
  carried.filterMap fun c => (published[c.1]?).map (·.copy c.2)

/-- What a copy of a publication tells the peer `me`: nothing if it wrote or forwarded it itself,
or if the envelope is too deep to be read. -/
def Publication.tells (me forwarder : PeerId) (p : Publication) : Option Message :=
  if forwarder = me ∨ p.author = me ∨ Message.payloadDepth < p.message.payload.depth then none
  else some p.message

theorem Publication.eq_of_tells {me forwarder : PeerId} {p : Publication} {m : Message}
    (h : p.tells me forwarder = some m) : p.author ≠ me ∧ p.message = m := by
  simp only [tells, Option.ite_none_left_eq_some, not_or, Option.some.injEq] at h
  exact ⟨h.1.2.1, h.2⟩

/-- A publication of a node as it is. -/
structure Publication.Genuine (p : Publication) : Prop where
  data : p.data = p.message.toBytes
  integers : p.message.payload.IntegersOnly
  ordered : p.message.payload.Ordered

theorem Publication.Genuine.accepted?_copy {p : Publication} (h : p.Genuine)
    (me forwarder : PeerId) :
    ReceiveLoop.accepted? me (p.copy forwarder) = p.tells me forwarder := by
  have hread := Message.toOption_ofBytes_toBytes h.integers h.ordered
  rw [← h.data] at hread
  simp only [ReceiveLoop.accepted?_eq, copy, tells, Option.some.injEq, hread, ← or_assoc]
  by_cases hown : forwarder = me ∨ p.author = me
  · rw [if_pos hown, if_pos (Or.inl hown)]
  · by_cases hdepth : p.message.payload.depth ≤ Message.payloadDepth
    · simp [hown, hdepth, Nat.not_lt.2 hdepth]
    · simp [hown, hdepth, Nat.lt_of_not_le hdepth]

theorem envelopes_copies {published : List Publication} (h : ∀ p ∈ published, p.Genuine)
    (me : PeerId) (heard : List (Nat × PeerId)) :
    Exchange.envelopes me (copies published heard) =
      heard.filterMap fun c => (published[c.1]?).bind (·.tells me c.2) := by
  rw [Exchange.envelopes_eq_filterMap, copies, List.filterMap_filterMap]
  congr 1
  funext c
  cases hp : published[c.1]? with
  | none => rfl
  | some publication => exact (h _ (List.mem_of_getElem? hp)).accepted?_copy me c.2

/-! ## Steps of a room -/

/-- The node that an action is about, and what happens to its receive loop. -/
def State.event? (s : State) : Action → Option (Nat × Event)
  | .publish _ _ => none
  | .carry p i forwarder => (s.published[p]?).map fun publication =>
    (i, .arrive (publication.copy forwarder))
  | .receive i a => some (i, .loop a)
  | .consume i => some (i, .take)
  | .cancel i => some (i, .cancel)

/-- Everything that can happen in a room, with what it leads to: something is published, or
something happens to the receive loop of a node. -/
inductive Steps (s : State) : Action → State → Prop
  | publish (i : Nat) (m : Message) (node : ReceiveLoop.State) : s.nodes[i]? = some node →
    Steps s (.publish i m)
      { s with
        published := s.published ++ [{ author := node.me, message := m, data := m.toBytes }] }
  | node (a : Action) (i : Nat) (e : Event) (node node' : ReceiveLoop.State) :
    s.event? a = some (i, e) → s.nodes[i]? = some node →
      (∀ x : Exchange, x.loop = node → node.inbound.fed = true →
        ∃ y, Exchange.step x e = some y ∧ y.loop = node' ∧
          y.arrived = x.arrived ++ Exchange.brought e) →
        Steps s a { s with nodes := s.nodes.set i node' }

theorem steps_of_step {s t : State} {a : Action} (h : step s a = some t) : Steps s a t := by
  cases a with
  | publish i m =>
      obtain ⟨node, hnode, h⟩ := Option.bind_eq_some_iff.1 h
      obtain ⟨text, -, -, hpublish⟩ := publisher.publishMessage_eq m
      change publisher.publishMessage m = .ok (some m.toBytes) at hpublish
      simp only [State.publish, hpublish] at h
      cases h
      exact .publish i m node hnode
  | carry p i forwarder =>
      simp only [step, Option.bind_eq_bind, Option.bind_eq_some_iff] at h
      obtain ⟨publication, hp, node, hnode, inbound, hsend, h⟩ := h
      cases h
      refine .node _ i (.arrive (publication.copy forwarder)) node _
        (by simp [State.event?, hp]) hnode fun x hx hfed => ?_
      refine ⟨{ x with loop := { node with inbound }
                       arrived := x.arrived ++ [publication.copy forwarder] }, ?_, rfl, rfl⟩
      subst hx
      simp only [Exchange.step, hfed, if_true, Option.map_eq_some_iff]
      exact ⟨inbound, hsend, rfl⟩
  | receive i a =>
      simp only [step, Option.bind_eq_bind, Option.bind_eq_some_iff] at h
      obtain ⟨node, hnode, node', hstep, h⟩ := h
      cases h
      refine .node _ i (.loop a) node node' rfl hnode fun x hx hfed => ?_
      refine ⟨{ x with loop := node' }, ?_, rfl, (List.append_nil _).symm⟩
      subst hx
      simp [Exchange.step, hstep]
  | consume i =>
      simp only [step, Option.bind_eq_bind, Option.bind_eq_some_iff] at h
      obtain ⟨node, hnode, ⟨m, delivery⟩, hreceive, h⟩ := h
      cases h
      refine .node _ i .take node _ rfl hnode fun x hx hfed => ?_
      refine ⟨{ x with loop := { node with delivery }, taken := x.taken ++ [m] }, ?_, rfl,
        (List.append_nil _).symm⟩
      subst hx
      simp [Exchange.step, hreceive]
  | cancel i =>
      obtain ⟨node, hnode, rfl⟩ := Option.map_eq_some_iff.1 h
      refine .node _ i .cancel node _ rfl hnode fun x hx hfed => ?_
      refine ⟨{ x with loop := { node with cancelled := true } }, ?_, rfl,
        (List.append_nil _).symm⟩
      subst hx
      rfl

/-- Nodes publish values without doubles, whose objects are in order. -/
def Faithful (_ : State) : Action → Prop
  | .publish _ m => m.payload.IntegersOnly ∧ m.payload.Ordered
  | _ => True

/-- The room, whatever its nodes and the mesh do. -/
def Runs (plan : List (PeerId × Nat × Nat)) : List Action → State → Prop :=
  Reaches step Faithful (launch plan)

/-! ## What holds at every moment -/

/-- A node's receive loop goes through a run in which what the mesh carried to it arrives. -/
def Hears (published : List Publication) (came : List (Nat × PeerId)) (node : ReceiveLoop.State) :
    Prop :=
  ∃ x : Exchange, x.loop = node ∧ x.arrived = copies published came ∧ Exchange.Exact node.me x ∧
    node.inbound.fed = true

/-- What was published and what the nodes hear of it. -/
structure Exact (plan : List (PeerId × Nat × Nat)) (actions : List Action) (s : State) :
    Prop where
  peers : s.nodes.map (·.me) = plan.map (·.1)
  published : s.published = publications plan actions
  genuine : ∀ p ∈ s.published, p.Genuine
  /-- The mesh carries only what was published before. -/
  earlier : ∀ i copy, copy ∈ carried i actions → copy.1 < s.published.length
  hears : ∀ i node, s.nodes[i]? = some node → Hears s.published (carried i actions) node

theorem exact_launch (plan : List (PeerId × Nat × Nat)) : Exact plan [] (launch plan) where
  peers := by simp [launch]
  published := rfl
  genuine _ h := by cases h
  earlier _ _ h := by cases h
  hears i node hnode := by
    rw [launch, List.getElem?_map, Option.map_eq_some_iff] at hnode
    obtain ⟨⟨me, inboundSize, deliverySize⟩, -, rfl⟩ := hnode
    exact ⟨_, rfl, rfl, Exchange.exact_launch me inboundSize deliverySize, rfl⟩

section Preservation

variable {plan : List (PeerId × Nat × Nat)} {actions : List Action} {s t : State} {a : Action}

/-- Copies of what was published before stay what they are. -/
theorem copies_append {published : List Publication} {came : List (Nat × PeerId)}
    (h : ∀ c ∈ came, c.1 < published.length) (more : List Publication) :
    copies (published ++ more) came = copies published came := by
  apply List.filterMap_congr
  intro c hc
  rw [List.getElem?_append_left (h c hc)]

/-- A node is the peer that it was planned to be. -/
theorem Exact.peer (h : Exact plan actions s) {i : Nat} {node : ReceiveLoop.State}
    (hnode : s.nodes[i]? = some node) : ∃ sizes, plan[i]? = some (node.me, sizes) := by
  have hme := congrArg (·[i]?) h.peers
  simp only [List.getElem?_map, hnode, Option.map_some] at hme
  obtain ⟨⟨me, sizes⟩, hplan, rfl⟩ := Option.map_eq_some_iff.1 hme.symm
  exact ⟨sizes, hplan⟩

/-- An action on a receive loop publishes nothing, and brings what is carried to that node only. -/
theorem State.event?_eq_some {i : Nat} {e : Event} (h : s.event? a = some (i, e))
    (plan : List (PeerId × Nat × Nat)) :
    publications plan [a] = [] ∧ (∀ j, j ≠ i → carried j [a] = []) ∧
      copies s.published (carried i [a]) = Exchange.brought e ∧
      (∀ copy ∈ carried i [a], copy.1 < s.published.length) ∧ e ≠ .closeInput := by
  cases a with
  | publish => cases h
  | carry p i' forwarder =>
      obtain ⟨publication, hp, he⟩ := Option.map_eq_some_iff.1 h
      obtain ⟨rfl, rfl⟩ := Prod.mk.inj he
      have hcarried : carried i' [.carry p i' forwarder] = [(p, forwarder)] := by
        simp [carried]
      refine ⟨rfl, fun j hj => by simp [carried, hj.symm], ?_, ?_, Event.noConfusion⟩
      · rw [hcarried]
        simp [copies, hp, Exchange.brought]
      · rw [hcarried]
        rintro copy hcopy
        rw [List.mem_singleton.1 hcopy]
        exact (List.getElem?_eq_some_iff.1 hp).1
  | receive i' a =>
      cases h
      exact ⟨rfl, fun _ _ => rfl, rfl, nofun, Event.noConfusion⟩
  | consume i' =>
      cases h
      exact ⟨rfl, fun _ _ => rfl, rfl, nofun, Event.noConfusion⟩
  | cancel i' =>
      cases h
      exact ⟨rfl, fun _ _ => rfl, rfl, nofun, Event.noConfusion⟩

theorem Exact.publish {i : Nat} {m : Message} {node : ReceiveLoop.State}
    (h : Exact plan actions s) (hnode : s.nodes[i]? = some node)
    (hm : m.payload.IntegersOnly ∧ m.payload.Ordered) :
    Exact plan (actions ++ [.publish i m])
      { s with
        published := s.published ++ [{ author := node.me, message := m, data := m.toBytes }] } := by
  have hcarried (j : Nat) : carried j (actions ++ [.publish i m]) = carried j actions := by
    rw [carried_append]
    exact List.append_nil _
  refine ⟨h.peers, ?_, fun p hp => ?_, fun j copy hcopy => ?_, fun j other hother => ?_⟩
  · obtain ⟨sizes, hplan⟩ := h.peer hnode
    have hnew : publications plan [.publish i m] =
        [{ author := node.me, message := m, data := m.toBytes }] := by
      simp [publications, hplan]
    rw [publications_append, ← h.published, hnew]
  · rcases List.mem_append.1 hp with hp | hp
    · exact h.genuine p hp
    · rw [List.mem_singleton.1 hp]
      exact ⟨rfl, hm.1, hm.2⟩
  · rw [hcarried] at hcopy
    exact Nat.lt_of_lt_of_le (h.earlier j copy hcopy) (by simp)
  · obtain ⟨x, hx, harrived, hexact, hfed⟩ := h.hears j other hother
    refine ⟨x, hx, ?_, hexact, hfed⟩
    rw [hcarried, copies_append (h.earlier j), harrived]

theorem Exact.node {i : Nat} {e : Event} {node node' : ReceiveLoop.State}
    (h : Exact plan actions s) (he : s.event? a = some (i, e)) (hnode : s.nodes[i]? = some node)
    (hmoves : ∀ x : Exchange, x.loop = node → node.inbound.fed = true →
      ∃ y, Exchange.step x e = some y ∧ y.loop = node' ∧
        y.arrived = x.arrived ++ Exchange.brought e) :
    Exact plan (actions ++ [a]) { s with nodes := s.nodes.set i node' } := by
  obtain ⟨hpublished, hothers, hbrought, hbefore, hopen⟩ := State.event?_eq_some he plan
  obtain ⟨x, hx, harrived, hexact, hfed⟩ := h.hears i node hnode
  obtain ⟨y, hstep, hy, hmore⟩ := hmoves x hx hfed
  have hnext := hexact.step hstep
  have hme : node'.me = node.me := by
    rw [← hy]
    exact hnext.self
  refine ⟨?_, ?_, h.genuine, fun j copy hcopy => ?_, fun j other hother => ?_⟩
  · obtain ⟨hi, rfl⟩ := List.getElem?_eq_some_iff.1 hnode
    rw [List.map_set, hme, ← List.map_set, List.set_getElem_self]
    exact h.peers
  · rw [publications_append, hpublished, List.append_nil]
    exact h.published
  · rw [carried_append] at hcopy
    rcases List.mem_append.1 hcopy with hcopy | hcopy
    · exact h.earlier j copy hcopy
    · by_cases hj : j = i
      · exact hbefore copy (hj ▸ hcopy)
      · rw [hothers j hj] at hcopy
        cases hcopy
  · rw [carried_append]
    by_cases hj : j = i
    · subst hj
      rw [List.getElem?_set_self (List.getElem?_eq_some_iff.1 hnode).1] at hother
      cases hother
      refine ⟨y, hy, ?_, hme ▸ hnext, ?_⟩
      · rw [hmore, harrived, ← hbrought, copies, copies, copies, List.filterMap_append]
      · rw [← hy, Exchange.fed_of_step hstep hopen, hx]
        exact hfed
    · rw [List.getElem?_set_ne (Ne.symm hj)] at hother
      rw [hothers j hj, List.append_nil]
      exact h.hears j other hother

theorem Exact.step (h : Exact plan actions s) (ha : Faithful s a) (hs : Steps s a t) :
    Exact plan (actions ++ [a]) t := by
  cases hs with
  | publish i m node hnode => exact h.publish hnode ha
  | node a i e node node' he hnode hmoves => exact h.node he hnode hmoves

theorem Runs.exact (hrun : Runs plan actions s) : Exact plan actions s := by
  induction hrun with
  | start => exact exact_launch plan
  | step _ ha hs ih => exact ih.step ha (steps_of_step hs)

end Preservation

/-- Publishing a value without doubles that nests at most 126 levels never fails, with or without a
network, and a network is handed one text that is not empty and from which the envelope can be read.
Whatever the mesh carries, duplicates, delays, reorders or drops: what a node has handed over is
what the copies that reached it first tell it, in order, where its own publications tell it nothing.
So each envelope was published before, by a node that is another peer. -/
theorem hears_only_others (plan : List (PeerId × Nat × Nat)) :
    (∀ (p : Publisher) (m : Message), m.payload.IntegersOnly → m.payload.Ordered →
      m.payload.depth ≤ 126 →
        ∃ text, text ≠ "" ∧ Message.ofBytes (Utf8.encode text) = .ok m ∧
          p.publishMessage m = .ok (if p.connected then some (Utf8.encode text) else none)) ∧
    ∀ actions s, Runs plan actions s → ∀ i node, s.nodes[i]? = some node →
      (∃ heard, heard <+: carried i actions ∧ node.delivered =
        heard.filterMap fun c =>
          ((publications plan actions)[c.1]?).bind (·.tells node.me c.2)) ∧
      ∀ m ∈ node.delivered, ∃ j author sizes, .publish j m ∈ actions ∧
        plan[j]? = some (author, sizes) ∧ author ≠ node.me ∧ j ≠ i := by
  constructor
  · intro p m hi ho hdepth
    obtain ⟨text, hne, hencode, hpublish⟩ := p.publishMessage_eq m
    have hread := Message.ofBytes_toBytes hi ho hdepth
    exact ⟨text, hne, by rw [hencode, hread], by rw [hencode, hpublish]⟩
  · intro actions s hrun i node hnode
    have hexact := hrun.exact
    obtain ⟨x, hx, harrived, hloop, -⟩ := hexact.hears i node hnode
    obtain ⟨before, held, hconsumed, hdelivered, -⟩ := hloop.delivered
    obtain ⟨rest, hrest, -⟩ := hloop.arrived
    have hprefix : before <+: copies s.published (carried i actions) := by
      rw [← harrived, hrest, hconsumed, List.append_assoc]
      exact List.prefix_append _ _
    obtain ⟨heard, hheard, rfl⟩ := List.prefix_filterMap_iff.1 hprefix
    have htold := hdelivered.trans (envelopes_copies hexact.genuine node.me heard)
    rw [hx, hexact.published] at htold
    refine ⟨⟨heard, hheard, htold⟩, fun m hm => ?_⟩
    rw [htold, List.mem_filterMap] at hm
    obtain ⟨c, -, hc⟩ := hm
    obtain ⟨publication, hp, htells⟩ := Option.bind_eq_some_iff.1 hc
    obtain ⟨hauthor, rfl⟩ := Publication.eq_of_tells htells
    obtain ⟨j, sizes, hmade, hj⟩ := exists_publish_of_mem (List.mem_of_getElem? hp)
    refine ⟨j, publication.author, sizes, hmade, hj, hauthor, ?_⟩
    rintro rfl
    obtain ⟨sizes', hself⟩ := hexact.peer hnode
    rw [hj] at hself
    exact hauthor (congrArg Prod.fst (Option.some.inj hself))

open ReceiveLoop.Exchange (greeting)

/-- Three peers with queues of four. -/
def trio : List (PeerId × Nat × Nat) :=
  [(⟨0, [1]⟩, 4, 4), (⟨0, [2]⟩, 4, 4), (⟨0, [3]⟩, 4, 4)]

/-- The first of three nodes greets. The second one hears it twice, and the greeting comes back to
the first one through the third. -/
def echo : List Action :=
  [.publish 0 greeting, .carry 0 1 ⟨0, [1]⟩, .carry 0 1 ⟨0, [3]⟩, .carry 0 0 ⟨0, [3]⟩,
    .receive 0 .receive, .receive 1 .receive, .receive 1 .deliver, .receive 1 .receive,
    .receive 1 .deliver, .consume 1]

/-- The greeting is read at the second node, each time as what another node published, and the first
node does not hear itself. -/
theorem echo_heard :
    (∃ text, text ≠ "" ∧ Message.ofBytes (Utf8.encode text) = .ok greeting ∧
      publisher.publishMessage greeting = .ok (some (Utf8.encode text))) ∧
    ∃ s first second, Runs trio echo s ∧ s.nodes[0]? = some first ∧ s.nodes[1]? = some second ∧
      first.consumed.length = 1 ∧ first.delivered = [] ∧
      second.delivered = [greeting, greeting] ∧
      ∃ j author sizes, .publish j greeting ∈ echo ∧ trio[j]? = some (author, sizes) ∧
        author ≠ second.me ∧ j ≠ 1 := by
  refine ⟨(hears_only_others trio).1 publisher greeting trivial trivial (by decide), ?_⟩
  have hstate : (replay step (fun _ a => match a with
      | .publish _ m => m.payload = .null
      | _ => true) (launch trio) echo).map (fun s =>
        (s.nodes[0]?.map fun n => (n.consumed.length, n.delivered),
          s.nodes[1]?.map fun n => n.delivered)) =
      some (some (1, []), some [greeting, greeting]) := by decide +kernel
  obtain ⟨s, hs, hnodes⟩ := Option.map_eq_some_iff.1 hstate
  have hrun : Runs trio echo s := by
    refine reaches_of_replay _ (fun _ a ha => ?_) hs
    cases a with
    | publish i m =>
        have hm : m.payload = .null := of_decide_eq_true ha
        exact ⟨hm ▸ trivial, hm ▸ trivial⟩
    | _ => trivial
  simp only [Prod.mk.injEq] at hnodes
  obtain ⟨⟨first, hfirst, hsilent⟩, second, hsecond, hheard⟩ :=
    hnodes.imp Option.map_eq_some_iff.1 Option.map_eq_some_iff.1
  obtain ⟨hconsumed, hdelivered⟩ := Prod.mk.inj hsilent
  have hothers := ((hears_only_others trio).2 echo s hrun 1 second hsecond).2
  exact ⟨s, first, second, hrun, hfirst, hsecond, hconsumed, hdelivered, hheard,
    hothers greeting (by simp [hheard])⟩

end Room

end GossipDirectory
