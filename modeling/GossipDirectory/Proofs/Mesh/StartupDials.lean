import GossipDirectory.Proofs.Mesh.StartupRun

/-!
# The dials of a start

The dials of a start go on at the same time, and their steps interleave with those of the network
task. Whatever happens, the start dials the peers that it was given, with their addresses. It begins
no dial twice, and goes on only after each of them was begun and is over.
-/

namespace GossipDirectory

namespace Startup

/-- The peers that are dialed. -/
def State.dialed (s : State) : List KnownPeer :=
  s.dials.map fun d => (d.peer, d.addresses)

/-- How often a dial was begun. -/
def State.begun (s : State) (i : Nat) : Nat :=
  (s.dials[i]?).elim 0 fun d => if d.stage = .sending then 0 else 1

/-- The start goes on after its dials only. -/
def State.Waited (s : State) : Prop :=
  s.returned = true → ∀ d ∈ s.dials, d.stage = .done

variable {s t : State} {a : Action} {d : Dial} {i : Nat} {stage : DialStage}
  {allowed : State → Action → Prop} {actions : List Action} {w : Worker} {known : List KnownPeer}

theorem begun_le_one (s : State) (i : Nat) : s.begun i ≤ 1 := by
  rw [State.begun]
  cases s.dials[i]? with
  | none => exact Nat.zero_le 1
  | some d =>
      rw [Option.elim_some]
      split <;> decide

theorem dialed_setStage (s : State) (i : Nat) (stage : DialStage) :
    (s.setStage i stage).dialed = s.dialed := by
  apply List.ext_getElem?
  intro j
  rw [State.dialed, State.dialed, State.setStage, List.getElem?_map, List.getElem?_map,
    List.getElem?_modify]
  cases s.dials[j]? with
  | none => rfl
  | some d => by_cases h : i = j <;> simp [h]

/-- A dial that leaves its first stage is begun once more. -/
theorem begun_setStage (hd : s.dials[i]? = some d) (hstage : stage ≠ .sending) (j : Nat) :
    (s.setStage i stage).begun j =
      s.begun j + if i = j ∧ d.stage = .sending then 1 else 0 := by
  by_cases hij : i = j
  · subst hij
    rw [State.begun, State.begun, setStage_self hd, hd, Option.elim_some, Option.elim_some,
      if_neg hstage]
    by_cases hsending : d.stage = .sending <;> simp [hsending]
  · rw [State.begun, State.begun, setStage_of_ne hij]
    simp [hij]

namespace Steps

/-- A dial is begun exactly by the action that sends it. -/
theorem begun (h : Steps s a t) (i : Nat) :
    t.begun i = s.begun i + if a = .send i then 1 else 0 := by
  cases h with
  | network h => rfl
  | send j d commands hd hsending hc =>
      change (s.setStage j .waiting).begun i = _
      rw [begun_setStage hd DialStage.noConfusion]
      simp [hsending]
  | giveUp j d hd hsending hheard =>
      rw [begun_setStage hd DialStage.noConfusion]
      simp [hsending]
  | hear j d hd hwaiting hresolved =>
      rw [begun_setStage hd DialStage.noConfusion]
      simp [hwaiting]
  | proceed hreturned hdone => rfl
  | cancel => rfl

theorem dialed (h : Steps s a t) : t.dialed = s.dialed := by
  cases h with
  | network h => rfl
  | send j d commands hd hsending hc => exact dialed_setStage _ j .waiting
  | giveUp j d hd hsending hheard => exact dialed_setStage s j .done
  | hear j d hd hwaiting hresolved => exact dialed_setStage s j .done
  | proceed hreturned hdone => rfl
  | cancel => rfl

theorem waited (h : Steps s a t) (hs : s.Waited) : t.Waited := by
  -- a dial that goes on is not over, so the start has not gone on before
  have hstill : ∀ {j : Nat} {d : Dial}, s.dials[j]? = some d → d.stage ≠ .done →
      s.returned ≠ true :=
    fun hd hstage hreturned => hstage (hs hreturned _ (List.mem_of_getElem? hd))
  cases h with
  | network h => exact hs
  | send j d commands hd hsending hc =>
      exact fun hreturned => absurd hreturned (hstill hd (by simp [hsending]))
  | giveUp j d hd hsending hheard =>
      exact fun hreturned => absurd hreturned (hstill hd (by simp [hsending]))
  | hear j d hd hwaiting hresolved =>
      exact fun hreturned => absurd hreturned (hstill hd (by simp [hwaiting]))
  | proceed hreturned hdone => exact fun _ => hdone
  | cancel => exact hs

end Steps

namespace Run

theorem begun (hrun : Run allowed s actions t) (i : Nat) :
    t.begun i = s.begun i + actions.count (.send i) := by
  induction hrun with
  | done s => rfl
  | step ha hstep hrun ih =>
      rw [ih, (steps_of_step hstep).begun, List.count_cons]
      simp only [beq_iff_eq]
      omega

theorem dialed (hrun : Run allowed s actions t) : t.dialed = s.dialed := by
  induction hrun with
  | done s => rfl
  | step ha hstep hrun ih => rw [ih, (steps_of_step hstep).dialed]

theorem waited (hrun : Run allowed s actions t) (hs : s.Waited) : t.Waited := by
  induction hrun with
  | done s => exact hs
  | step ha hstep hrun ih => exact ih ((steps_of_step hstep).waited hs)

end Run

theorem dialed_launch (w : Worker) (known : List KnownPeer) :
    (State.launch w known).dialed = known := by
  apply List.ext_getElem?
  intro i
  rw [State.dialed, List.getElem?_map, launch_dials, Option.map_map]
  exact congrFun Option.map_id _

theorem begun_launch (w : Worker) (known : List KnownPeer) (i : Nat) :
    (State.launch w known).begun i = 0 := by
  rw [State.begun, launch_dials]
  cases known[i]? <;> rfl

/-- No dial is begun twice, and before the start goes on each was begun. -/
theorem Run.begun_once (hrun : Run allowed (.launch w known) actions t) :
    t.dialed = known ∧ (∀ i, actions.count (.send i) ≤ 1) ∧
      (t.returned = true → ∀ i, actions.count (.send i) = if i < known.length then 1 else 0) := by
  have hdialed : t.dialed = known := hrun.dialed.trans (dialed_launch w known)
  have hcount : ∀ i, actions.count (.send i) = t.begun i := by
    intro i
    rw [hrun.begun, begun_launch, Nat.zero_add]
  refine ⟨hdialed, fun i => hcount i ▸ begun_le_one t i, fun hreturned i => ?_⟩
  have hlength : known.length = t.dials.length := by
    rw [← hdialed, State.dialed, List.length_map]
  rw [hcount, State.begun, hlength]
  split
  case isTrue hlt =>
    have hdone := hrun.waited nofun hreturned _ (List.getElem_mem hlt)
    rw [List.getElem?_eq_getElem hlt, Option.elim_some, hdone]
    rfl
  case isFalse hle =>
    rw [List.getElem?_eq_none (Nat.le_of_not_lt hle)]
    rfl

end Startup

end GossipDirectory
