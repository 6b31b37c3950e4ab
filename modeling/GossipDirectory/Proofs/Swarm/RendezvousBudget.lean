import GossipDirectory.Proofs.Swarm.Trimming
import GossipDirectory.Proofs.Swarm.WorkerHistory

/-!
# The budget of a query

The network task dials the providers that a query finds, up to a limit for each query. The node
itself and peers to which a connection is open are passed over and cost nothing. What is dialed for
a query is a first part of what it was offered while it ran, as long as the limit allows; a query
that was offered more is ended and forgotten. Nothing else that happens to the task makes a
difference, other queries included.

## Implementation notes

What is offered is said by the history: a query runs from when it is tracked until it is reported to
have ended. The task forgets a query that is past its limit, too, which the history does not show;
the count of what was offered does.
-/

namespace GossipDirectory

/-- The peer that a request dials on behalf of a query. -/
def Request.provider? : Request → Option PeerId
  | .dialKnown peer => some peer
  | _ => none

namespace Worker

variable {w : Worker} {query other : Nat} {h : List Input} {i : Input}

/-! ## One batch of providers -/

/-- How many providers were accepted for a query that is not forgotten. -/
def found? (w : Worker) (query : Nat) : Option Nat :=
  Keyed.get? query w.rendezvous.queries

/-- How many more providers may be dialed for a query. -/
def budget (w : Worker) (query : Nat) : Nat :=
  ((w.found? query).map (w.rendezvous.limit - ·)).getD 0

/-- The providers that are not passed over. -/
def candidates (w : Worker) (providers : List PeerId) : List PeerId :=
  providers.filter fun peer => peer ≠ w.me ∧ w.isConnected peer = false

/-- The task with another count for a query. -/
def counting (w : Worker) (query found : Nat) : Worker :=
  { w with rendezvous :=
      { w.rendezvous with queries := Keyed.put query found w.rendezvous.queries } }

theorem found?_counting_self (w : Worker) (query found : Nat) :
    (w.counting query found).found? query = some found :=
  Keyed.get?_put_self _ _ _

theorem found?_counting_of_ne (hne : other ≠ query) (w : Worker) (found : Nat) :
    (w.counting query found).found? other = w.found? other :=
  Keyed.get?_put_of_ne hne _ _

theorem budget_of_found {found : Nat} (hfound : w.found? query = some found) :
    w.budget query = w.rendezvous.limit - found := by
  rw [budget, hfound, Option.map_some, Option.getD_some]

/-- What a batch of providers comes to: so many of its candidates are dialed as the budget allows,
and if there are more the query is ended and forgotten. -/
structure Spends (w : Worker) (query : Nat) (offers : List PeerId)
    (outcome : Worker × List Request) : Prop where
  requests_eq : outcome.2 = (offers.take (w.budget query)).map .dialKnown ++
    if w.budget query < offers.length then [.endQuery query] else []
  found?_eq : outcome.1.found? query =
    if w.budget query < offers.length then none else (w.found? query).map (· + offers.length)
  found?_of_ne : ∀ other ≠ query, outcome.1.found? other = w.found? other
  limit_eq : outcome.1.rendezvous.limit = w.rendezvous.limit

theorem spends_nil (w : Worker) (query : Nat) : Spends w query [] (w, []) where
  requests_eq := by simp
  found?_eq := by simp
  found?_of_ne _ _ := rfl
  limit_eq := rfl

/-- A candidate that the budget does not allow for ends the query. -/
theorem spends_refused (hbudget : w.budget query = 0) (peer : PeerId) (rest : List PeerId) :
    Spends w query (peer :: rest)
      ({ w with rendezvous := w.rendezvous.finish query }, [.endQuery query]) where
  requests_eq := by simp [hbudget]
  found?_eq := by simp [hbudget, found?, Rendezvous.finish]
  found?_of_ne _ hne := Keyed.get?_erase_of_ne hne _
  limit_eq := rfl

/-- There is a budget left only for a query that is not forgotten. -/
theorem budget_pos_iff :
    0 < w.budget query ↔ ∃ found, w.found? query = some found ∧ found < w.rendezvous.limit := by
  cases hfound : w.found? query with
  | none => simp [budget, hfound]
  | some found =>
      rw [budget_of_found hfound, Nat.sub_pos_iff_lt]
      simp

theorem accept_of_budget_eq_zero (hbudget : w.budget query = 0) :
    w.rendezvous.accept query = (false, w.rendezvous) := by
  unfold Rendezvous.accept
  cases hfound : Keyed.get? query w.rendezvous.queries with
  | none => rfl
  | some found =>
      rw [budget_of_found hfound, Nat.sub_eq_zero_iff_le] at hbudget
      exact if_neg (Nat.not_lt.2 hbudget)

/-- A candidate that the budget allows for is counted. -/
theorem accept_of_lt {found : Nat} (hfound : w.found? query = some found)
    (hlt : found < w.rendezvous.limit) :
    w.rendezvous.accept query = (true, (w.counting query (found + 1)).rendezvous) := by
  unfold Rendezvous.accept
  rw [show Keyed.get? query w.rendezvous.queries = some found from hfound]
  exact if_pos hlt

/-- A candidate is dialed before the rest if the budget allows for it. -/
theorem Spends.cons {found : Nat} (hfound : w.found? query = some found)
    (hlt : found < w.rendezvous.limit) {offers : List PeerId} {outcome : Worker × List Request}
    (h : Spends (w.counting query (found + 1)) query offers outcome) (peer : PeerId) :
    Spends w query (peer :: offers) (outcome.1, .dialKnown peer :: outcome.2) := by
  have hrest : (w.counting query (found + 1)).budget query + 1 = w.budget query := by
    rw [budget_of_found hfound, budget_of_found (found?_counting_self w query (found + 1))]
    exact Nat.sub_add_cancel (Nat.sub_pos_of_lt hlt)
  constructor
  case requests_eq => simp [h.requests_eq, ← hrest]
  case found?_eq =>
    rw [h.found?_eq, found?_counting_self, hfound, ← hrest, List.length_cons]
    simp only [Nat.add_lt_add_iff_right, Option.map_some, Nat.add_right_comm, ← Nat.add_assoc]
  case found?_of_ne =>
    exact fun other hne => (h.found?_of_ne other hne).trans (found?_counting_of_ne hne _ _)
  case limit_eq => exact h.limit_eq

theorem dialProviders_spends (w : Worker) (query : Nat) (providers : List PeerId) :
    Spends w query (w.candidates providers) (w.dialProviders query providers) := by
  induction providers generalizing w with
  | nil => exact spends_nil w query
  | cons provider rest ih =>
      by_cases hskip : provider = w.me ∨ w.isConnected provider
      · have hpassed : w.candidates (provider :: rest) = w.candidates rest := by
          refine List.filter_cons_of_neg ?_
          rcases hskip with hme | hlinked
          · simp [hme]
          · simp [hlinked]
        rw [hpassed, dialProviders, if_pos hskip]
        exact ih w
      · have hoffered : w.candidates (provider :: rest) = provider :: w.candidates rest := by
          refine List.filter_cons_of_pos ?_
          simpa [not_or] using hskip
        rw [hoffered, dialProviders, if_neg hskip]
        by_cases hbudget : w.budget query = 0
        · rw [accept_of_budget_eq_zero hbudget]
          exact spends_refused hbudget provider _
        · obtain ⟨found, hfound, hlt⟩ := budget_pos_iff.1 (Nat.pos_of_ne_zero hbudget)
          rw [accept_of_lt hfound hlt]
          exact (ih (w.counting query (found + 1))).cons hfound hlt provider

/-! ## Inputs and the queries they are about -/

namespace Input

/-- The query that an input is about: it is tracked, has found providers, or has ended. -/
def query? : Input → Option Nat
  | .advertise query => some query
  | .report _ _ (.providersFound query _) => some query
  | .report _ _ (.queryEnded query) => some query
  | _ => none

/-- The providers that an input names. -/
def providers : Input → List PeerId
  | .report _ _ (.providersFound _ providers) => providers
  | _ => []

/-- Whether a query runs after an input, if it is known whether it ran before. -/
def runs (query : Nat) (running : Bool) : Input → Bool
  | .advertise q => running || q == query
  | .report _ _ (.queryEnded q) => running && q != query
  | _ => running

theorem cases_of_query? (hi : i.query? = some query) :
    i = .advertise query ∨
      (∃ now meshPeers providers, i = .report now meshPeers (.providersFound query providers)) ∨
      ∃ now meshPeers, i = .report now meshPeers (.queryEnded query) := by
  unfold query? at hi
  split at hi
  case h_1 =>
    cases hi
    exact .inl rfl
  case h_2 now meshPeers _ providers =>
    cases hi
    exact .inr (.inl ⟨now, meshPeers, providers, rfl⟩)
  case h_3 now meshPeers _ =>
    cases hi
    exact .inr (.inr ⟨now, meshPeers, rfl⟩)
  case h_4 => cases hi

/-- An input about a query says nothing about a connection. -/
theorem link?_of_query? (hi : i.query? = some query) : i.link? = none := by
  obtain rfl | ⟨now, meshPeers, providers, rfl⟩ | ⟨now, meshPeers, rfl⟩ := cases_of_query? hi
  all_goals rfl

end Input

/-- A query was tracked in a history and has not been reported to have ended since. -/
def running (query : Nat) (h : List Input) : Bool :=
  h.foldl (Input.runs query) false

/-- What an input offers for a query that runs: the providers that it has found, less the ones that
are passed over. -/
def offeredAt (w : Worker) (query : Nat) (past : List Input) (i : Input) : List PeerId :=
  if i.query? = some query ∧ running query past then (w.after past).candidates i.providers else []

/-- The peers that are dialed on behalf of a query at an input about it. -/
def dialedAt (w : Worker) (query : Nat) (past : List Input) (i : Input) : List PeerId :=
  if i.query? = some query then ((w.after past).handle i).2.filterMap Request.provider? else []

/-- What a history offers for a query. -/
def offeredFor (w : Worker) (query : Nat) (h : List Input) : List PeerId :=
  gather (w.offeredAt query) h

/-- The peers that are dialed on behalf of a query during a history. -/
def dialedFor (w : Worker) (query : Nat) (h : List Input) : List PeerId :=
  gather (w.dialedAt query) h

/-- What an input that is about no query leaves alone. -/
structure SameQueries (w w' : Worker) : Prop where
  me_eq : w'.me = w.me
  rendezvous_eq : w'.rendezvous = w.rendezvous

theorem sameQueries_handleEvent {now : Millis} {meshPeers : List PeerId} {event : SwarmEvent}
    (hi : (Input.report now meshPeers event).query? = none) (w : Worker) :
    SameQueries w (w.handleEvent now meshPeers event).1 := by
  cases event with
  | gossip g => exact ⟨rfl, rfl⟩
  | identified peer addresses =>
      rw [handleEvent, foldl_remember_eq]
      exact ⟨rfl, rfl⟩
  | listening address =>
      obtain ⟨listening, heq⟩ := exists_listening_eq w now meshPeers address
      obtain ⟨mode, hstate⟩ := exists_promote_eq { w with listening } address
      rw [heq, hstate]
      exact ⟨rfl, rfl⟩
  | established id peer dialed =>
      rw [handleEvent, opened_eq]
      exact ⟨rfl, rfl⟩
  | closed id peer remaining =>
      obtain ⟨connections, heq⟩ := exists_closed_eq w now meshPeers id peer remaining
      rw [heq]
      exact ⟨rfl, rfl⟩
  | dialFailed id peer failure =>
      obtain ⟨book, heq⟩ := exists_dialFailed_eq w id peer failure
      rw [handleEvent, heq, settleDial_eq]
      exact ⟨rfl, rfl⟩
  | routed peer addresses evicted =>
      obtain ⟨book, heq⟩ : ∃ book,
          (w.handleEvent now meshPeers (.routed peer addresses evicted)).1 = { w with book } := by
        cases evicted with
        | none => exact ⟨_, foldl_remember_eq peer addresses w⟩
        | some old => exact ⟨_, foldl_remember_eq peer addresses (w.forget old)⟩
      rw [heq]
      exact ⟨rfl, rfl⟩
  | unroutable peer => exact ⟨rfl, rfl⟩
  | providersFound query providers => cases hi
  | queryEnded query => cases hi

theorem sameQueries_handle (hi : i.query? = none) (w : Worker) : SameQueries w (w.handle i).1 := by
  cases i with
  | command answer c =>
      obtain ⟨⟨pendingDials, hstate⟩, -⟩ := handleCommand_spec w answer c
      rw [handle, hstate]
      exact ⟨rfl, rfl⟩
  | report now meshPeers event => exact sameQueries_handleEvent hi w
  | advertise query => cases hi
  | trim now meshPeers => exact ⟨rfl, rfl⟩

/-- No input changes who the node is and what its limit is. -/
theorem me_limit_handle (w : Worker) (i : Input) :
    (w.handle i).1.me = w.me ∧ (w.handle i).1.rendezvous.limit = w.rendezvous.limit := by
  cases hi : i.query? with
  | none =>
      obtain ⟨hme, hrendezvous⟩ := sameQueries_handle hi w
      exact ⟨hme, congrArg Rendezvous.limit hrendezvous⟩
  | some query =>
      obtain rfl | ⟨now, meshPeers, providers, rfl⟩ | ⟨now, meshPeers, rfl⟩ :=
        Input.cases_of_query? hi
      · exact ⟨rfl, rfl⟩
      · obtain ⟨⟨rendezvous, hstate⟩, -⟩ := dialProviders_spec w query providers
        refine ⟨?_, (dialProviders_spends w query providers).limit_eq⟩
        rw [handle, handleEvent, hstate]
      · exact ⟨rfl, rfl⟩

/-- An input about something else leaves the count of a query. -/
theorem found?_handle_of_ne (hi : i.query? ≠ some query) (w : Worker) :
    (w.handle i).1.found? query = w.found? query := by
  cases hother : i.query? with
  | none =>
      rw [found?, (sameQueries_handle hother w).rendezvous_eq]
      rfl
  | some other =>
      have hne : query ≠ other := fun heq => hi (heq ▸ hother)
      obtain rfl | ⟨now, meshPeers, providers, rfl⟩ | ⟨now, meshPeers, rfl⟩ :=
        Input.cases_of_query? hother
      · exact found?_counting_of_ne hne w 0
      · exact (dialProviders_spends w other providers).found?_of_ne query hne
      · exact Keyed.get?_erase_of_ne hne _

theorem runs_of_ne (hi : i.query? ≠ some query) (running : Bool) :
    i.runs query running = running := by
  unfold Input.runs
  split
  case h_1 q =>
    have hne : q ≠ query := fun heq => hi (heq ▸ rfl)
    simp [hne]
  case h_2 now meshPeers q =>
    have hne : q ≠ query := fun heq => hi (heq ▸ rfl)
    simp [hne]
  case h_3 => rfl

theorem me_limit_after (w : Worker) (h : List Input) :
    (w.after h).me = w.me ∧ (w.after h).rendezvous.limit = w.rendezvous.limit := by
  induction h using List.reverseRecOn with
  | nil => exact ⟨rfl, rfl⟩
  | append_singleton h i ih =>
      rw [after_snoc]
      obtain ⟨hme, hlimit⟩ := me_limit_handle (w.after h) i
      exact ⟨hme.trans ih.1, hlimit.trans ih.2⟩

theorem running_snoc (query : Nat) (h : List Input) (i : Input) :
    running query (h ++ [i]) = i.runs query (running query h) := by
  rw [running, List.foldl_append]
  rfl

/-! ## The account of a query -/

variable {now : Millis} {meshPeers providers : List PeerId}

theorem offeredFor_snoc (w : Worker) (query : Nat) (h : List Input) (i : Input) :
    w.offeredFor query (h ++ [i]) = w.offeredFor query h ++ w.offeredAt query h i :=
  gather_snoc _ h i

theorem dialedFor_snoc (w : Worker) (query : Nat) (h : List Input) (i : Input) :
    w.dialedFor query (h ++ [i]) = w.dialedFor query h ++ w.dialedAt query h i :=
  gather_snoc _ h i

theorem dialedAt_of_ne (hi : i.query? ≠ some query) (w : Worker) (past : List Input) :
    w.dialedAt query past i = [] :=
  if_neg hi

theorem dialedAt_of_self (hi : i.query? = some query) (w : Worker) (past : List Input) :
    w.dialedAt query past i = ((w.after past).handle i).2.filterMap Request.provider? :=
  if_pos hi

theorem offeredAt_of_ne (hi : i.query? ≠ some query) (w : Worker) (past : List Input) :
    w.offeredAt query past i = [] :=
  if_neg fun h => hi h.1

theorem dialedAt_advertise (w : Worker) (past : List Input) :
    w.dialedAt query past (.advertise query) = [] :=
  dialedAt_of_self rfl w past

theorem dialedAt_queryEnded (w : Worker) (past : List Input) :
    w.dialedAt query past (.report now meshPeers (.queryEnded query)) = [] :=
  dialedAt_of_self rfl w past

theorem offeredAt_of_providers_eq_nil (hi : i.providers = []) (w : Worker) (past : List Input) :
    w.offeredAt query past i = [] := by
  rw [offeredAt, hi]
  exact ite_self _

/-- Of what providers were found, so many candidates are dialed as the budget allows. -/
theorem dialedAt_providersFound (w : Worker) (past : List Input) :
    w.dialedAt query past (.report now meshPeers (.providersFound query providers)) =
      ((w.after past).candidates providers).take ((w.after past).budget query) := by
  have hdialed : ∀ peers : List PeerId,
      (peers.map Request.dialKnown).filterMap Request.provider? = peers := by
    intro peers
    rw [List.filterMap_map]
    exact List.filterMap_some
  rw [dialedAt_of_self rfl, handle, handleEvent, (dialProviders_spends _ _ _).requests_eq,
    List.filterMap_append, hdialed]
  split
  · exact List.append_nil _
  · exact List.append_nil _

theorem offeredAt_providersFound (w : Worker) (past : List Input) :
    w.offeredAt query past (.report now meshPeers (.providersFound query providers)) =
      if running query past then (w.after past).candidates providers else [] := by
  rw [offeredAt]
  by_cases hrunning : running query past <;> simp [hrunning, Input.query?, Input.providers]

/-- What a history has made of a query that was tracked at most once. -/
structure Account (w : Worker) (query : Nat) (h : List Input) : Prop where
  dialed_eq : w.dialedFor query h = (w.offeredFor query h).take w.rendezvous.limit
  found?_eq : (w.after h).found? query =
    if running query h ∧ (w.offeredFor query h).length ≤ w.rendezvous.limit then
      some (w.offeredFor query h).length
    else none
  ended : w.rendezvous.limit < (w.offeredFor query h).length → .endQuery query ∈ w.requested h
  untracked : .advertise query ∉ h → running query h = false ∧ w.offeredFor query h = []

/-- The budget is what the limit leaves of what was offered. -/
theorem Account.budget_eq (ha : Account w query h) :
    (w.after h).budget query =
      if running query h then w.rendezvous.limit - (w.offeredFor query h).length else 0 := by
  rw [budget, ha.found?_eq, (me_limit_after w h).2]
  by_cases hrunning : running query h
  · by_cases hwithin : (w.offeredFor query h).length ≤ w.rendezvous.limit
    · simp [hrunning, hwithin]
    · simp [hrunning, hwithin, Nat.sub_eq_zero_of_le (Nat.le_of_not_le hwithin)]
  · simp [hrunning]

/-- An input that neither offers nor dials changes whether the query runs, at most. -/
theorem Account.snoc_of_silent (ha : Account w query h) (hoffered : w.offeredAt query h i = [])
    (hdialed : w.dialedAt query h i = [])
    (hfound : (w.after (h ++ [i])).found? query =
      if running query (h ++ [i]) ∧ (w.offeredFor query h).length ≤ w.rendezvous.limit then
        some (w.offeredFor query h).length
      else none)
    (huntracked : .advertise query ∉ h ++ [i] → running query (h ++ [i]) = false) :
    Account w query (h ++ [i]) := by
  have hsame : w.offeredFor query (h ++ [i]) = w.offeredFor query h := by
    rw [offeredFor_snoc, hoffered, List.append_nil]
  constructor
  case dialed_eq =>
    rw [dialedFor_snoc, hdialed, List.append_nil, hsame]
    exact ha.dialed_eq
  case found?_eq => rw [hsame, hfound]
  case ended =>
    intro hover
    rw [requested_snoc]
    exact List.mem_append_left _ (ha.ended (hsame ▸ hover))
  case untracked =>
    intro hnot
    rw [hsame]
    exact ⟨huntracked hnot, (ha.untracked fun hmem => hnot (List.mem_append_left _ hmem)).2⟩

theorem Account.snoc_of_ne (ha : Account w query h) (hi : i.query? ≠ some query) :
    Account w query (h ++ [i]) := by
  refine ha.snoc_of_silent (offeredAt_of_ne hi w h) (dialedAt_of_ne hi w h) ?_ fun hnot => ?_
  · rw [after_snoc, found?_handle_of_ne hi, running_snoc, runs_of_ne hi, ha.found?_eq]
  · rw [running_snoc, runs_of_ne hi]
    exact (ha.untracked fun hmem => hnot (List.mem_append_left _ hmem)).1

/-- A query that is tracked for the first time has been offered nothing. -/
theorem Account.snoc_advertise (ha : Account w query h) (hfirst : .advertise query ∉ h) :
    Account w query (h ++ [.advertise query]) := by
  have hnone := (ha.untracked hfirst).2
  refine ha.snoc_of_silent (offeredAt_of_providers_eq_nil rfl w h) (dialedAt_advertise w h) ?_
    fun hnot => absurd (by simp) hnot
  · have hcount : ((w.after h).handle (.advertise query)).1.found? query = some 0 :=
      found?_counting_self (w.after h) query 0
    rw [after_snoc, hcount, running_snoc, hnone]
    simp [Input.runs]

theorem Account.snoc_queryEnded (ha : Account w query h) :
    Account w query (h ++ [.report now meshPeers (.queryEnded query)]) := by
  refine ha.snoc_of_silent (offeredAt_of_providers_eq_nil rfl w h) (dialedAt_queryEnded w h) ?_
    fun _ => ?_
  · have hgone : ((w.after h).handle
        (.report now meshPeers (.queryEnded query))).1.found? query = none :=
      Keyed.get?_erase_self query (w.after h).rendezvous.queries
    rw [after_snoc, hgone, running_snoc]
    simp [Input.runs]
  · simp [running_snoc, Input.runs]

/-- Providers that are found go on the account as far as the query runs. -/
theorem Account.snoc_providersFound (ha : Account w query h) :
    Account w query (h ++ [.report now meshPeers (.providersFound query providers)]) := by
  have hspends := dialProviders_spends (w.after h) query providers
  have hbudget := ha.budget_eq
  have hfound := ha.found?_eq
  have hrunning : running query (h ++ [.report now meshPeers (.providersFound query providers)]) =
      running query h := running_snoc query h _
  have hoffered : w.offeredFor query
      (h ++ [.report now meshPeers (.providersFound query providers)]) =
        w.offeredFor query h ++
          if running query h then (w.after h).candidates providers else [] := by
    rw [offeredFor_snoc, offeredAt_providersFound]
  constructor
  case dialed_eq =>
    rw [dialedFor_snoc, dialedAt_providersFound, hoffered, List.take_append, hbudget, ha.dialed_eq]
    by_cases hruns : running query h <;> simp [hruns]
  case found?_eq =>
    rw [after_snoc, hrunning, hoffered]
    change ((w.after h).dialProviders query providers).1.found? query = _
    rw [hspends.found?_eq, hbudget, hfound]
    by_cases hruns : running query h
    · by_cases hwithin : (w.offeredFor query h).length ≤ w.rendezvous.limit
      · simp only [hruns, hwithin, if_true, true_and, List.length_append, Option.map_some]
        by_cases hfits : (w.offeredFor query h).length +
            ((w.after h).candidates providers).length ≤ w.rendezvous.limit
        · rw [if_neg (by omega), if_pos hfits]
        · rw [if_pos (by omega), if_neg hfits]
      · have hover : ¬(w.offeredFor query h).length +
            ((w.after h).candidates providers).length ≤ w.rendezvous.limit := by omega
        simp [hruns, hwithin, hover]
    · simp [hruns]
  case ended =>
    intro hover
    rw [requested_snoc]
    by_cases hpast : w.rendezvous.limit < (w.offeredFor query h).length
    · exact List.mem_append_left _ (ha.ended hpast)
    · refine List.mem_append_right _ ?_
      change _ ∈ ((w.after h).dialProviders query providers).2
      have hruns : running query h = true := by
        by_contra hnot
        rw [hoffered, if_neg hnot, List.append_nil] at hover
        exact hpast hover
      rw [hoffered, if_pos hruns, List.length_append] at hover
      rw [hspends.requests_eq, hbudget, if_pos hruns, if_pos (by omega)]
      exact List.mem_append_right _ (List.mem_singleton_self _)
  case untracked =>
    intro hnot
    obtain ⟨hruns, hnone⟩ := ha.untracked fun hmem => hnot (List.mem_append_left _ hmem)
    rw [hrunning, hoffered, hnone, hruns]
    exact ⟨rfl, rfl⟩

theorem account_after (hw : w.found? query = none) (honce : h.count (.advertise query) ≤ 1) :
    Account w query h := by
  induction h using List.reverseRecOn with
  | nil => exact ⟨by simp [dialedFor, offeredFor], hw, fun h => absurd h (Nat.not_lt_zero _),
      fun _ => ⟨rfl, rfl⟩⟩
  | append_singleton h i ih =>
      rw [List.count_append] at honce
      have ha := ih (Nat.le_of_add_right_le honce)
      by_cases hi : i.query? = some query
      · obtain rfl | ⟨now, meshPeers, providers, rfl⟩ | ⟨now, meshPeers, rfl⟩ :=
          Input.cases_of_query? hi
        · refine ha.snoc_advertise fun hmem => ?_
          have hcount := List.count_pos_iff.2 hmem
          rw [List.count_singleton_self] at honce
          omega
        · exact ha.snoc_providersFound
        · exact ha.snoc_queryEnded
      · exact ha.snoc_of_ne hi

/-! ## Batches -/

theorem Account.length_dialedFor (ha : Account w query h) :
    (w.dialedFor query h).length = min w.rendezvous.limit (w.offeredFor query h).length := by
  rw [ha.dialed_eq, List.length_take]

/-- What is dialed at an input is what the limit leaves of what it offers. -/
theorem Account.dialedAt_eq (ha : Account w query h) (i : Input) :
    w.dialedAt query h i =
      (w.offeredAt query h i).take (w.rendezvous.limit - (w.dialedFor query h).length) := by
  by_cases hi : i.query? = some query
  · obtain rfl | ⟨now, meshPeers, providers, rfl⟩ | ⟨now, meshPeers, rfl⟩ :=
      Input.cases_of_query? hi
    · rw [dialedAt_advertise, offeredAt_of_providers_eq_nil rfl, List.take_nil]
    · rw [dialedAt_providersFound, offeredAt_providersFound, ha.budget_eq, ha.length_dialedFor]
      have hleft : w.rendezvous.limit - min w.rendezvous.limit (w.offeredFor query h).length =
          w.rendezvous.limit - (w.offeredFor query h).length := by omega
      by_cases hruns : running query h
      · rw [if_pos hruns, if_pos hruns, hleft]
      · simp [hruns]
    · rw [dialedAt_queryEnded, offeredAt_of_providers_eq_nil rfl, List.take_nil]
  · rw [dialedAt_of_ne hi, offeredAt_of_ne hi, List.take_nil]

/-- Offered are the providers that are found for a query that runs, less the node itself and the
peers that it is connected to. -/
theorem mem_offeredAt_iff (hidle : w.Idle) {peer : PeerId} :
    peer ∈ w.offeredAt query h i ↔
      i.query? = some query ∧ running query h ∧ peer ∈ i.providers ∧ peer ≠ w.me ∧
        ¬ConnectedTo h peer := by
  rw [offeredAt]
  split
  case isTrue hruns =>
    rw [candidates, List.mem_filter, decide_eq_true_eq, (me_limit_after w h).1,
      ← isConnected_iff hidle h peer, Bool.not_eq_true]
    exact ⟨fun hmem => ⟨hruns.1, hruns.2, hmem⟩, fun hmem => hmem.2.2⟩
  case isFalse hnot =>
    exact ⟨fun hmem => absurd hmem List.not_mem_nil, fun hmem => absurd ⟨hmem.1, hmem.2.1⟩ hnot⟩

/-- A query that was offered more than its limit is forgotten, and nothing more is dialed for it. -/
theorem Account.dialedFor_append (ha : Account w query h)
    (hover : w.rendezvous.limit < (w.offeredFor query h).length) {more : List Input}
    (hmore : Account w query (h ++ more)) :
    w.dialedFor query (h ++ more) = w.dialedFor query h := by
  rw [hmore.dialed_eq, ha.dialed_eq, offeredFor, gather_append, ← offeredFor,
    List.take_append_of_le_length (Nat.le_of_lt hover)]

/-! ## Other queries -/

/-- An input is about the query or about none. -/
def Input.regards (query : Nat) (i : Input) : Bool :=
  i.query?.all (· = query)

theorem links_handle_congr {w' : Worker} (hlinks : w.links = w'.links) (i : Input) :
    (w.handle i).1.links = (w'.handle i).1.links := by
  cases hi : i.link? with
  | none => rw [(sameLinks_handle hi w).links_eq, (sameLinks_handle hi w').links_eq, hlinks]
  | some report =>
      cases report with
      | opened id peer now => rw [(handle_of_opened hi w).1, (handle_of_opened hi w').1, hlinks]
      | closed id peer remaining =>
          rw [(handle_of_closed hi w).1, (handle_of_closed hi w').1, hlinks]

/-- All that counts of the past for what an input offers is which connections are open and whether
the query runs. -/
theorem offeredAt_congr {h' : List Input} (hlinks : (w.after h).links = (w.after h').links)
    (hrunning : running query h = running query h') (i : Input) :
    w.offeredAt query h i = w.offeredAt query h' i := by
  simp only [offeredAt, candidates, isConnected, hlinks, hrunning, (me_limit_after w _).1]

/-- Two histories in which the connections are the same and the query was offered the same. -/
structure SameView (w : Worker) (query : Nat) (h h' : List Input) : Prop where
  links_eq : (w.after h).links = (w.after h').links
  running_eq : running query h = running query h'
  offeredFor_eq : w.offeredFor query h = w.offeredFor query h'

theorem sameView_regards (w : Worker) (query : Nat) (h : List Input) :
    SameView w query (h.filter (·.regards query)) h := by
  induction h using List.reverseRecOn with
  | nil => exact ⟨rfl, rfl, rfl⟩
  | append_singleton h i ih =>
      rw [List.filter_append]
      by_cases hi : i.regards query
      · rw [List.filter_cons_of_pos hi, List.filter_nil]
        constructor
        case links_eq => rw [after_snoc, after_snoc, links_handle_congr ih.links_eq]
        case running_eq => rw [running_snoc, running_snoc, ih.running_eq]
        case offeredFor_eq =>
          rw [offeredFor_snoc, offeredFor_snoc, ih.offeredFor_eq,
            offeredAt_congr ih.links_eq ih.running_eq]
      · have hother : i.query? ≠ some query := by
          intro hself
          simp [Input.regards, hself] at hi
        have hlink : i.link? = none := by
          cases hquery : i.query? with
          | none => simp [Input.regards, hquery] at hi
          | some other => exact Input.link?_of_query? hquery
        rw [List.filter_cons_of_neg hi, List.filter_nil, List.append_nil]
        constructor
        case links_eq => rw [after_snoc, (sameLinks_handle hlink _).links_eq, ih.links_eq]
        case running_eq => rw [running_snoc, runs_of_ne hother, ih.running_eq]
        case offeredFor_eq =>
          rw [ih.offeredFor_eq, offeredFor_snoc, offeredAt_of_ne hother, List.append_nil]

theorem count_filter_regards (query : Nat) (h : List Input) :
    (h.filter (·.regards query)).count (.advertise query) = h.count (.advertise query) :=
  List.count_filter (by simp [Input.regards, Input.query?])

/-! ## Within the budget -/

/-- For a query that is tracked at most once, in whatever order it and others are tracked, find
providers and end: at most as many peers are dialed as the limit allows, the first ones of what is
offered; at each input as many as are left of the limit; nothing once more was offered; and what is
dialed is the same without the inputs about other queries. -/
theorem dialed_within_budget (hidle : w.Idle) (hnew : w.found? query = none)
    (honce : h.count (.advertise query) ≤ 1) :
    (w.dialedFor query h).length ≤ w.rendezvous.limit ∧
    w.dialedFor query h = (w.offeredFor query h).take w.rendezvous.limit ∧
    (∀ before i after, h = before ++ i :: after →
      w.dialedAt query before i = (w.offeredAt query before i).take
        (w.rendezvous.limit - (w.dialedFor query before).length) ∧
      ∀ peer, peer ∈ w.offeredAt query before i ↔
        i.query? = some query ∧ running query before ∧ peer ∈ i.providers ∧ peer ≠ w.me ∧
          ¬ConnectedTo before peer) ∧
    (w.rendezvous.limit < (w.offeredFor query h).length →
      (w.after h).found? query = none ∧ .endQuery query ∈ w.requested h ∧
      ∀ more, (h ++ more).count (.advertise query) ≤ 1 →
        w.dialedFor query (h ++ more) = w.dialedFor query h) ∧
    w.dialedFor query (h.filter (·.regards query)) = w.dialedFor query h := by
  have ha := account_after hnew honce
  refine ⟨?_, ha.dialed_eq, ?_, fun hover => ⟨?_, ha.ended hover, ?_⟩, ?_⟩
  · rw [ha.length_dialedFor]
    exact Nat.min_le_left _ _
  · rintro before i after rfl
    rw [List.count_append] at honce
    have hbefore := account_after hnew (Nat.le_of_add_right_le honce)
    exact ⟨hbefore.dialedAt_eq i, fun peer => mem_offeredAt_iff hidle⟩
  · rw [ha.found?_eq, if_neg fun hwithin => Nat.not_le.2 hover hwithin.2]
  · exact fun more hmore => ha.dialedFor_append hover (account_after hnew hmore)
  · have hkept := account_after hnew (by rwa [count_filter_regards])
    rw [hkept.dialed_eq, ha.dialed_eq, (sameView_regards w query h).offeredFor_eq]

open ConnectionManager (peerOf)

/-- A node that dials two providers for each query. -/
def sparing : Worker :=
  { newcomer (peerOf 0) 6 8 with rendezvous := .ofRoom "room" 2 }

/-- Two queries find providers by turns, among them the node itself and a peer that it is connected
to. One of the queries finds more than the node dials. -/
def crowd : List Input :=
  [.advertise 7, .advertise 8, .report 5 [] (.established 1 (peerOf 1) none),
    .report 6 [] (.providersFound 7 [peerOf 0, peerOf 1, peerOf 2]),
    .report 7 [] (.providersFound 8 [peerOf 2]),
    .report 8 [] (.providersFound 7 [peerOf 3, peerOf 4, peerOf 5]),
    .report 9 [] (.providersFound 7 [peerOf 6]), .report 9 [] (.queryEnded 8)]

/-- Only the first two of the crowd are dialed. -/
theorem crowd_dialed :
    sparing.Idle ∧ sparing.found? 7 = none ∧ crowd.count (.advertise 7) = 1 ∧
      sparing.offeredFor 7 crowd = [peerOf 2, peerOf 3, peerOf 4, peerOf 5, peerOf 6] ∧
      sparing.dialedFor 7 crowd = [peerOf 2, peerOf 3] ∧
      (sparing.after crowd).found? 7 = none ∧ .endQuery 7 ∈ sparing.requested crowd ∧
      sparing.dialedFor 7 (crowd.filter (·.regards 7)) = [peerOf 2, peerOf 3] := by
  have honce : crowd.count (.advertise 7) = 1 := rfl
  have hoffered : sparing.offeredFor 7 crowd =
      [peerOf 2, peerOf 3, peerOf 4, peerOf 5, peerOf 6] := rfl
  obtain ⟨-, hfirst, -, hover, hsame⟩ :=
    dialed_within_budget (w := sparing) ⟨rfl, rfl⟩ rfl (Nat.le_of_eq honce)
  have hdialed : sparing.dialedFor 7 crowd = [peerOf 2, peerOf 3] := by
    rw [hfirst, hoffered]
    rfl
  obtain ⟨hgone, hended, -⟩ := hover (by rw [hoffered]; decide)
  exact ⟨⟨rfl, rfl⟩, rfl, honce, hoffered, hdialed, hgone, hended, hsame.trans hdialed⟩

end Worker

end GossipDirectory
