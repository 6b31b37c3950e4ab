import GossipDirectory.Swarm.PeerBook
import Mathlib.Data.Finset.Card
import Mathlib.Data.List.DropRight
import Mathlib.Data.List.Induction

/-!
# Histories of known addresses

A history lists the calls that a book of known peers was given, the latest last. A peer is listed
after it exactly if it was given an address since it was last removed. Of these addresses the last
eight that came anew are held, in the order in which they came, so one of them is lost only to a
ninth, and the one that was held longest is.

## Implementation notes

An address that is held and comes again changes nothing, and one that was lost and comes again counts
as new. So the order of the held addresses is not that of their first or last calls. It is said by
the moments since when each of them has been held all the time.
-/

namespace GossipDirectory

namespace PeerBook

/-- A call that changes the book. -/
inductive Call
  | add (peer : PeerId) (address : Multiaddr)
  | remove (peer : PeerId)
  deriving DecidableEq, Repr

namespace Call

/-- The book after a call. -/
def effect (b : PeerBook) : Call → PeerBook
  | .add peer address => b.add peer address
  | .remove peer => (b.remove peer).2

/-- The address that a call adds to a peer. -/
def added? (peer : PeerId) : Call → Option Multiaddr
  | .add p address => if p = peer then some address else none
  | .remove _ => none

theorem added?_eq_some_iff {peer : PeerId} {address : Multiaddr} {c : Call} :
    c.added? peer = some address ↔ c = .add peer address := by
  cases c with
  | add p a => rw [added?, Option.ite_none_right_eq_some, Option.some.injEq, Call.add.injEq]
  | remove p => exact ⟨nofun, nofun⟩

end Call

/-- The book after a history. -/
def after (history : List Call) : PeerBook :=
  history.foldl Call.effect empty

/-- The addresses that a peer was given since it was last removed. -/
def addedSince (peer : PeerId) (history : List Call) : List Multiaddr :=
  (history.rtakeWhile (· ≠ .remove peer)).filterMap (Call.added? peer)

/-- The addresses that are held of a peer after a history. -/
def held (peer : PeerId) (history : List Call) : List Multiaddr :=
  (after history).addresses peer

/-- An address has been held from a moment of a history to its end. -/
def HeldSince (peer : PeerId) (address : Multiaddr) (before more : List Call) : Prop :=
  ∀ first, first <+: more → address ∈ held peer (before ++ first)

/-- An address has been held since a moment since when another has not. -/
def HeldLonger (peer : PeerId) (history : List Call) (address other : Multiaddr) : Prop :=
  ∃ before more, history = before ++ more ∧ HeldSince peer address before more ∧
    ¬HeldSince peer other before more

variable {peer : PeerId} {history : List Call} {known : List Multiaddr}
  {address other : Multiaddr} {c : Call}

/-! ## One more call -/

theorem after_snoc (history : List Call) (c : Call) :
    after (history ++ [c]) = c.effect (after history) := by
  rw [after, List.foldl_append]
  rfl

theorem addedSince_snoc_remove (peer : PeerId) (history : List Call) :
    addedSince peer (history ++ [.remove peer]) = [] := by
  rw [addedSince, List.rtakeWhile_concat_neg _ _ _ (by simp)]
  rfl

theorem addedSince_snoc (h : c ≠ .remove peer) :
    addedSince peer (history ++ [c]) =
      addedSince peer history ++ [c].filterMap (Call.added? peer) := by
  rw [addedSince, List.rtakeWhile_concat_pos _ _ _ (by simpa using h), List.filterMap_append]
  rfl

theorem addedSince_snoc_of_added (h : c.added? peer = some address) :
    addedSince peer (history ++ [c]) = addedSince peer history ++ [address] := by
  have hc : c ≠ .remove peer := by
    rintro rfl
    cases h
  rw [addedSince_snoc hc, List.filterMap_cons_some h, List.filterMap_nil]

theorem addedSince_snoc_of_none (hc : c ≠ .remove peer) (h : c.added? peer = none) :
    addedSince peer (history ++ [c]) = addedSince peer history := by
  rw [addedSince_snoc hc, List.filterMap_cons_none h, List.filterMap_nil, List.append_nil]

theorem held_snoc_remove (peer : PeerId) (history : List Call) :
    held peer (history ++ [.remove peer]) = [] := by
  rw [held, after_snoc]
  exact addresses_remove_self _ peer

theorem held_snoc_of_added (h : c.added? peer = some address) :
    held peer (history ++ [c]) = remember (held peer history) address := by
  rw [held, after_snoc, Call.added?_eq_some_iff.1 h]
  exact addresses_add_self _ peer address

/-- A call about another peer leaves the addresses of this one. -/
theorem held_snoc_of_none (hc : c ≠ .remove peer) (h : c.added? peer = none) :
    held peer (history ++ [c]) = held peer history := by
  rw [held, after_snoc]
  cases c with
  | add p a =>
      have hne : p ≠ peer := by simpa [Call.added?] using h
      exact addresses_add_of_ne hne.symm _ a
  | remove p =>
      have hne : p ≠ peer := by simpa using hc
      exact addresses_remove_of_ne hne.symm _

/-! ## What an address that comes does -/

theorem remember_of_mem (h : address ∈ known) : remember known address = known :=
  if_pos h

theorem remember_of_lt (h : address ∉ known) (hlt : known.length < maxAddresses) :
    remember known address = known ++ [address] := by
  rw [remember, if_neg h, if_neg (Nat.ne_of_lt hlt)]

theorem remember_of_full (h : address ∉ known) (hfull : known.length = maxAddresses) :
    remember known address = known.drop 1 ++ [address] := by
  rw [remember, if_neg h, if_pos hfull]

/-- A new address comes last, behind what there is room for. -/
theorem exists_remember_eq (h : address ∉ known) (hle : known.length ≤ maxAddresses) :
    ∃ kept, remember known address = kept ++ [address] ∧ kept.Sublist known ∧
      kept.length < maxAddresses ∧ (known.length < maxAddresses → kept = known) := by
  rcases Nat.lt_or_eq_of_le hle with hlt | hfull
  · exact ⟨known, remember_of_lt h hlt, List.Sublist.refl _, hlt, fun _ => rfl⟩
  · refine ⟨known.drop 1, remember_of_full h hfull, List.drop_sublist 1 known, ?_, ?_⟩
    · rw [List.length_drop, hfull]
      decide
    · exact fun hlt => absurd hfull (Nat.ne_of_lt hlt)

/-! ## Since when an address is held -/

theorem heldSince_snoc {before more : List Call} :
    HeldSince peer address before (more ++ [c]) ↔
      HeldSince peer address before more ∧ address ∈ held peer (before ++ more ++ [c]) := by
  constructor
  · intro h
    constructor
    · exact fun first hfirst => h first (hfirst.trans (List.prefix_append more [c]))
    · rw [List.append_assoc]
      exact h _ (List.prefix_refl _)
  · rintro ⟨h, hlast⟩ first hfirst
    rcases List.prefix_concat_iff.1 hfirst with rfl | hfirst
    · rwa [← List.append_assoc]
    · exact h first hfirst

/-- An address that is held since a moment is held since every later one. -/
theorem HeldSince.later {before middle more : List Call}
    (h : HeldSince peer address before (middle ++ more)) :
    HeldSince peer address (before ++ middle) more := by
  intro first hfirst
  rw [List.append_assoc]
  exact h _ ((List.prefix_append_right_inj middle).2 hfirst)

theorem HeldLonger.snoc (h : HeldLonger peer history address other)
    (hheld : address ∈ held peer (history ++ [c])) :
    HeldLonger peer (history ++ [c]) address other := by
  obtain ⟨before, more, rfl, hsince, hnot⟩ := h
  refine ⟨before, more ++ [c], List.append_assoc _ _ _, heldSince_snoc.2 ⟨hsince, hheld⟩, ?_⟩
  exact fun hother => hnot (heldSince_snoc.1 hother).1

/-- Whatever is held already has been held longer than what comes now. -/
theorem heldLonger_of_not_mem (h : address ∈ held peer history)
    (hheld : address ∈ held peer (history ++ [c])) (hnew : other ∉ held peer history) :
    HeldLonger peer (history ++ [c]) address other := by
  have hsince : HeldSince peer address history ([] ++ [c]) := by
    rw [heldSince_snoc, List.append_nil]
    refine ⟨fun first hfirst => ?_, hheld⟩
    rwa [List.prefix_nil.1 hfirst, List.append_nil]
  refine ⟨history, [c], rfl, hsince, fun hother => hnew ?_⟩
  simpa using hother [] List.nil_prefix

/-- Of two addresses at most one has been held longer. -/
theorem HeldLonger.asymm (h : HeldLonger peer history address other) :
    ¬HeldLonger peer history other address := by
  rintro ⟨before', more', heq, hother, hnot'⟩
  obtain ⟨before, more, rfl, hsince, hnot⟩ := h
  rcases List.append_eq_append_iff.1 heq with ⟨middle, rfl, rfl⟩ | ⟨middle, rfl, rfl⟩
  · exact hnot' hsince.later
  · exact hnot hother.later

/-! ## The addresses of one peer -/

/-- What is held of a peer after a history. -/
structure Kept (peer : PeerId) (history : List Call) : Prop where
  nodup : (held peer history).Nodup
  length_le : (held peer history).length ≤ maxAddresses
  sublist : (held peer history).Sublist (addedSince peer history)
  recent : ∀ latest, (addedSince peer history).getLast? = some latest →
    latest ∈ held peer history
  complete : (addedSince peer history).toFinset.card ≤ maxAddresses →
    addedSince peer history ⊆ held peer history
  oldestFirst : (held peer history).Pairwise (HeldLonger peer history)

theorem kept_of_held_eq_nil (hadded : addedSince peer history = [])
    (hheld : held peer history = []) : Kept peer history := by
  constructor <;> simp [hadded, hheld]

/-- What is still held keeps its order. -/
theorem Kept.pairwise_snoc (h : Kept peer history) (hsub : known.Sublist (held peer history))
    (hstill : ∀ a ∈ known, a ∈ held peer (history ++ [c])) :
    known.Pairwise (HeldLonger peer (history ++ [c])) := by
  apply (h.oldestFirst.sublist hsub).imp_of_mem
  exact fun ha _ hlonger => hlonger.snoc (hstill _ ha)

/-- Nothing changes while the same addresses are held and were added. -/
theorem Kept.snoc_of_none (h : Kept peer history) (hc : c ≠ .remove peer)
    (hnone : c.added? peer = none) : Kept peer (history ++ [c]) := by
  have hadded : addedSince peer (history ++ [c]) = addedSince peer history :=
    addedSince_snoc_of_none hc hnone
  have hheld : held peer (history ++ [c]) = held peer history := held_snoc_of_none hc hnone
  constructor
  case oldestFirst => exact h.pairwise_snoc (hheld ▸ List.Sublist.refl _) fun _ ha => ha
  all_goals rw [hheld]
  case nodup => exact h.nodup
  case length_le => exact h.length_le
  all_goals rw [hadded]
  case sublist => exact h.sublist
  case recent => exact h.recent
  case complete => exact h.complete

/-- An address that is held and comes again stays where it is. -/
theorem Kept.snoc_of_mem (h : Kept peer history) (hc : c.added? peer = some address)
    (hmem : address ∈ held peer history) : Kept peer (history ++ [c]) := by
  have hadded : addedSince peer (history ++ [c]) = addedSince peer history ++ [address] :=
    addedSince_snoc_of_added hc
  have hheld : held peer (history ++ [c]) = held peer history :=
    (held_snoc_of_added hc).trans (remember_of_mem hmem)
  constructor
  case oldestFirst => exact h.pairwise_snoc (hheld ▸ List.Sublist.refl _) fun _ ha => ha
  all_goals rw [hheld]
  case nodup => exact h.nodup
  case length_le => exact h.length_le
  all_goals rw [hadded]
  case sublist => exact h.sublist.trans (List.sublist_append_left _ _)
  case recent =>
    intro latest hlatest
    rw [List.getLast?_concat] at hlatest
    rwa [← Option.some.inj hlatest]
  case complete =>
    intro hcard
    have hless : (addedSince peer history).toFinset.card ≤ maxAddresses :=
      (Finset.card_le_card (by simp)).trans hcard
    rw [List.append_subset]
    exact ⟨h.complete hless, by simpa using hmem⟩

/-- There is room for a new address while no more were added than can be held. -/
theorem Kept.length_lt (h : Kept peer history)
    (hnew : address ∉ held peer history)
    (hcard : (addedSince peer history ++ [address]).toFinset.card ≤ maxAddresses) :
    (held peer history).length < maxAddresses := by
  -- all held addresses were added, and with the new one there is one more
  have hsubset : insert address (held peer history).toFinset ⊆
      (addedSince peer history ++ [address]).toFinset := by
    intro a ha
    rw [Finset.mem_insert, List.mem_toFinset] at ha
    rw [List.mem_toFinset, List.mem_append, List.mem_singleton]
    exact ha.symm.imp_left fun ha => h.sublist.subset ha
  calc
    (held peer history).length < (held peer history).toFinset.card + 1 := by
      rw [List.toFinset_card_of_nodup h.nodup]
      exact Nat.lt_succ_self _
    _ = (insert address (held peer history).toFinset).card :=
      (Finset.card_insert_of_notMem (by simpa using hnew)).symm
    _ ≤ (addedSince peer history ++ [address]).toFinset.card := Finset.card_le_card hsubset
    _ ≤ maxAddresses := hcard

/-- A new address takes the last place, and the first one's if all places are taken. -/
theorem Kept.snoc_of_not_mem (h : Kept peer history) (hc : c.added? peer = some address)
    (hnew : address ∉ held peer history) : Kept peer (history ++ [c]) := by
  have hadded : addedSince peer (history ++ [c]) = addedSince peer history ++ [address] :=
    addedSince_snoc_of_added hc
  obtain ⟨kept, hremember, hsub, hlt, hall⟩ := exists_remember_eq hnew h.length_le
  have hheld : held peer (history ++ [c]) = kept ++ [address] :=
    (held_snoc_of_added hc).trans hremember
  have hstill : ∀ a ∈ kept, a ∈ held peer (history ++ [c]) := by
    intro a ha
    rw [hheld]
    exact List.mem_append_left _ ha
  constructor
  case oldestFirst =>
    rw [hheld, List.pairwise_append]
    refine ⟨?_, List.pairwise_singleton _ _, fun a ha other hother => ?_⟩
    · exact h.pairwise_snoc hsub hstill
    · rw [List.mem_singleton.1 hother]
      exact heldLonger_of_not_mem (hsub.subset ha) (hstill a ha) hnew
  all_goals rw [hheld]
  case nodup =>
    rw [List.nodup_append]
    refine ⟨h.nodup.sublist hsub, List.nodup_singleton _, fun a ha b hb heq => ?_⟩
    rw [heq, List.mem_singleton.1 hb] at ha
    exact hnew (hsub.subset ha)
  case length_le =>
    rw [List.length_append]
    exact hlt
  all_goals rw [hadded]
  case sublist => exact (hsub.trans h.sublist).append (List.Sublist.refl _)
  case recent =>
    intro latest hlatest
    rw [List.getLast?_concat] at hlatest
    rw [← Option.some.inj hlatest]
    exact List.mem_append_right _ List.mem_cons_self
  case complete =>
    intro hcard
    have hless : (addedSince peer history).toFinset.card ≤ maxAddresses :=
      (Finset.card_le_card (by simp)).trans hcard
    have hbefore := h.complete hless
    have hroom := h.length_lt hnew hcard
    rw [hall hroom, List.append_subset]
    exact ⟨fun a ha => List.mem_append_left _ (hbefore ha), List.subset_append_right _ _⟩

theorem kept_after (peer : PeerId) (history : List Call) : Kept peer history := by
  induction history using List.reverseRecOn with
  | nil => exact kept_of_held_eq_nil rfl rfl
  | append_singleton history c ih =>
      by_cases hc : c = .remove peer
      · subst hc
        exact kept_of_held_eq_nil (addedSince_snoc_remove peer history)
          (held_snoc_remove peer history)
      cases hadded : c.added? peer with
      | none => exact ih.snoc_of_none hc hadded
      | some address =>
          by_cases hmem : address ∈ held peer history
          · exact ih.snoc_of_mem hadded hmem
          · exact ih.snoc_of_not_mem hadded hmem

theorem held_ne_nil_iff : held peer history ≠ [] ↔ addedSince peer history ≠ [] := by
  have h := kept_after peer history
  constructor
  · intro hheld hadded
    have hsub := h.sublist
    rw [hadded, List.sublist_nil] at hsub
    exact hheld hsub
  · intro hadded
    exact List.ne_nil_of_mem (h.recent _ (List.getLast?_eq_some_getLast hadded))

/-- An address is lost only to a new one for which there is no room, and only if it was held
longest. -/
theorem lost_iff (hc : c ≠ .remove peer) (hmem : address ∈ held peer history) :
    address ∉ held peer (history ++ [c]) ↔
      ∃ new, c = .add peer new ∧ new ∉ held peer history ∧
        (held peer history).length = maxAddresses ∧
        ∀ other ∈ held peer history, other ≠ address → HeldLonger peer history address other := by
  have h := kept_after peer history
  obtain ⟨first, rest, hheld⟩ := List.exists_cons_of_ne_nil (List.ne_nil_of_mem hmem)
  have hfirst : ∀ other ∈ rest, HeldLonger peer history first other :=
    (List.pairwise_cons.1 (hheld ▸ h.oldestFirst)).1
  constructor
  · intro hlost
    cases hadded : c.added? peer with
    | none =>
        rw [held_snoc_of_none hc hadded] at hlost
        exact absurd hmem hlost
    | some new =>
        rw [held_snoc_of_added hadded] at hlost
        have hnew : new ∉ held peer history := by
          intro hnew
          rw [remember_of_mem hnew] at hlost
          exact hlost hmem
        have hfull : (held peer history).length = maxAddresses := by
          by_contra hne
          rw [remember_of_lt hnew (Nat.lt_of_le_of_ne h.length_le hne)] at hlost
          exact hlost (List.mem_append_left _ hmem)
        refine ⟨new, Call.added?_eq_some_iff.1 hadded, hnew, hfull, ?_⟩
        rw [remember_of_full hnew hfull, hheld] at hlost
        have hoverdue : address = first := by
          rcases List.mem_cons.1 (hheld ▸ hmem) with heq | hrest
          · exact heq
          · exact absurd (List.mem_append_left _ hrest) hlost
        intro other hother hne
        rw [hoverdue] at hne ⊢
        exact hfirst other ((List.mem_cons.1 (hheld ▸ hother)).resolve_left hne)
  · rintro ⟨new, rfl, hnew, hfull, hlongest⟩
    have hoverdue : address = first := by
      by_contra hne
      have hlonger := hlongest first (hheld ▸ List.mem_cons_self) (Ne.symm hne)
      exact hlonger.asymm
        (hfirst address ((List.mem_cons.1 (hheld ▸ hmem)).resolve_left hne))
    have hrest : first ∉ rest := (List.nodup_cons.1 (hheld ▸ h.nodup)).1
    have hother : first ≠ new := fun heq => hnew (heq ▸ hheld ▸ List.mem_cons_self)
    rw [held_snoc_of_added (Call.added?_eq_some_iff.2 rfl), remember_of_full hnew hfull, hheld,
      hoverdue]
    simp [hrest, hother]

/-! ## The whole book -/

/-- A book has one entry for each peer, and an address in every entry. -/
structure Tidy (b : PeerBook) : Prop where
  distinct : (Keyed.keys b.entries).Nodup
  get?_ne : ∀ peer, Keyed.get? peer b.entries ≠ some []

variable {b : PeerBook}

theorem Tidy.add (h : Tidy b) (peer : PeerId) (address : Multiaddr) :
    Tidy (b.add peer address) := by
  refine ⟨Keyed.nodup_keys_put h.distinct _ _, fun other => ?_⟩
  rw [PeerBook.add]
  by_cases hother : other = peer
  · rw [hother, Keyed.get?_put_self]
    exact fun heq => List.ne_nil_of_mem (mem_remember _ address) (Option.some.inj heq)
  · rw [Keyed.get?_put_of_ne hother]
    exact h.get?_ne other

theorem Tidy.remove (h : Tidy b) (peer : PeerId) : Tidy (b.remove peer).2 := by
  refine ⟨Keyed.nodup_keys_erase h.distinct peer, fun other => ?_⟩
  rw [PeerBook.remove]
  by_cases hother : other = peer
  · rw [hother, Keyed.get?_erase_self]
    exact (Option.some_ne_none []).symm
  · rw [Keyed.get?_erase_of_ne hother]
    exact h.get?_ne other

theorem tidy_after (history : List Call) : Tidy (after history) := by
  induction history using List.reverseRecOn with
  | nil => exact ⟨List.nodup_nil, fun _ => nofun⟩
  | append_singleton history c ih =>
      rw [after_snoc]
      cases c with
      | add peer address => exact ih.add peer address
      | remove peer => exact ih.remove peer

theorem Tidy.remove_fst_iff (h : Tidy b) (peer : PeerId) :
    (b.remove peer).1 = true ↔ b.addresses peer ≠ [] := by
  rw [PeerBook.remove, Keyed.contains, addresses]
  cases hget : Keyed.get? peer b.entries with
  | none => simp
  | some known =>
      have hne : known ≠ [] := fun heq => h.get?_ne peer (heq ▸ hget)
      simp [hne]

theorem Tidy.mem_peers_iff (h : Tidy b) :
    (peer, known) ∈ b.peers ↔ b.addresses peer ≠ [] ∧ known = b.addresses peer := by
  rw [peers, List.mem_filter, Keyed.mem_iff_get?_eq_some h.distinct, addresses]
  cases hget : Keyed.get? peer b.entries with
  | none => simp
  | some held =>
      have hne : held ≠ [] := fun heq => h.get?_ne peer (heq ▸ hget)
      constructor
      · rintro ⟨heq, -⟩
        exact ⟨hne, (Option.some.inj heq).symm⟩
      · rintro ⟨-, rfl⟩
        exact ⟨rfl, by simpa using hne⟩

/-- To forget a peer leaves the others listed as they were. -/
theorem peers_remove (b : PeerBook) (peer : PeerId) :
    (b.remove peer).2.peers = b.peers.filter (·.1 ≠ peer) := by
  rw [remove, peers, peers, Keyed.erase, List.filter_filter, List.filter_filter]
  apply List.filter_congr
  exact fun entry _ => Bool.and_comm _ _

/-- Each peer is listed once, and exactly if it was given an address since it was last removed. Its
addresses are different ones of these, at most eight, the latest among them and the one that is held
longest first; none is missing of up to eight. An address is lost only to a ninth, and it is the one
that was held longest. To remove a peer succeeds exactly if it is listed and leaves all others. -/
theorem peers_after (history : List Call) :
    ((after history).peers.map (·.1)).Nodup ∧
    (∀ peer known, (peer, known) ∈ (after history).peers ↔
      addedSince peer history ≠ [] ∧ known = held peer history) ∧
    (∀ peer known, (peer, known) ∈ (after history).peers →
      known.Nodup ∧ 1 ≤ known.length ∧ known.length ≤ 8 ∧
      known.Sublist (addedSince peer history) ∧ known.Pairwise (HeldLonger peer history) ∧
      (∀ latest, (addedSince peer history).getLast? = some latest → latest ∈ known) ∧
      ((addedSince peer history).toFinset.card ≤ 8 →
        ∀ address ∈ addedSince peer history, address ∈ known)) ∧
    (∀ peer, ∀ address ∈ held peer history, ∀ c ≠ Call.remove peer,
      address ∉ held peer (history ++ [c]) ↔
        ∃ new, c = .add peer new ∧ new ∉ held peer history ∧ (held peer history).length = 8 ∧
          ∀ other ∈ held peer history, other ≠ address →
            HeldLonger peer history address other) ∧
    ∀ peer,
      (((after history).remove peer).1 = true ↔ ∃ known, (peer, known) ∈ (after history).peers) ∧
      ((after history).remove peer).2.peers = (after history).peers.filter (·.1 ≠ peer) := by
  have htidy := tidy_after history
  have hlisted : ∀ peer known, (peer, known) ∈ (after history).peers ↔
      addedSince peer history ≠ [] ∧ known = held peer history := by
    intro peer known
    rw [htidy.mem_peers_iff, ← held_ne_nil_iff]
    exact Iff.rfl
  refine ⟨?once, hlisted, ?kept, fun peer address hmem c hc => lost_iff hc hmem, ?removed⟩
  case once => exact Keyed.nodup_keys_filter htidy.distinct _
  case kept =>
    intro peer known hmem
    obtain ⟨hadded, rfl⟩ := (hlisted peer known).1 hmem
    have h := kept_after peer history
    have hpos : 1 ≤ (held peer history).length :=
      List.length_pos_iff.2 (held_ne_nil_iff.2 hadded)
    exact ⟨h.nodup, hpos, h.length_le, h.sublist, h.oldestFirst, h.recent,
      fun hcard _ hmem => h.complete hcard hmem⟩
  case removed =>
    intro peer
    refine ⟨?_, peers_remove _ peer⟩
    rw [htidy.remove_fst_iff]
    simp only [htidy.mem_peers_iff, exists_and_left, exists_eq, and_true]

/-- An address for every port. -/
def addressAt (port : UInt16) : Multiaddr :=
  [.ip4 Ipv4.loopback, .port .tcp port]

/-- Two peers, told apart by their codes. -/
def somePeer (code : Nat) : PeerId :=
  { code, digest := [] }

/-- Eight addresses of a peer, of which the first comes again at once, then a ninth one. -/
def crowded : List Call :=
  .add (somePeer 0) (addressAt 1) :: .remove (somePeer 0) ::
    ([1, 2, 3, 4, 5, 6, 7, 8, 1, 9].map fun port => .add (somePeer 1) (addressAt port))

/-- The first address is lost to the ninth one. When it returns, the second one is lost, which was
held longest by then. -/
theorem crowded_lost :
    ((after crowded).remove (somePeer 0)).1 = false ∧
    (somePeer 1, [2, 3, 4, 5, 6, 7, 8, 9].map addressAt) ∈ (after crowded).peers ∧
    (somePeer 1, [3, 4, 5, 6, 7, 8, 9, 1].map addressAt) ∈
      (after (crowded ++ [.add (somePeer 1) (addressAt 1)])).peers ∧
    HeldLonger (somePeer 1) crowded (addressAt 2) (addressAt 9) := by
  obtain ⟨-, hlisted, -, hlost, hremoved⟩ := peers_after crowded
  obtain ⟨-, hlisted', -⟩ := peers_after (crowded ++ [.add (somePeer 1) (addressAt 1)])
  refine ⟨?gone, (hlisted _ _).2 (by decide), (hlisted' _ _).2 (by decide), ?longest⟩
  case gone =>
    rw [← Bool.not_eq_true, (hremoved (somePeer 0)).1]
    rintro ⟨known, hmem⟩
    exact absurd ((hlisted _ _).1 hmem).1 (by decide)
  case longest =>
    obtain ⟨-, -, -, -, hlongest⟩ := (hlost (somePeer 1) (addressAt 2) (by decide)
      (.add (somePeer 1) (addressAt 1)) nofun).1 (by decide)
    exact hlongest (addressAt 9) (by decide) (by decide)

end PeerBook

end GossipDirectory
