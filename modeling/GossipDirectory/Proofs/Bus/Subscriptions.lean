import GossipDirectory.Bus.Broker

/-!
# Subscriptions of the bus

What a call does to a subscription: a publication is added to the queue of everybody who listens to
its subject, the subscriber takes from the front of it, and everything else leaves the queue alone.

## Implementation notes

Only a bus that refuses nothing and ends no subscription is treated.
-/

namespace GossipDirectory

namespace Bus

/-- A bus that refuses nothing and feeds every subscription. -/
structure Sound (b : Bus) : Prop where
  subscribable : b.refusedSubscriptions = []
  publishable : b.refusedPublications = []
  numbered : ∀ s ∈ b.subscriptions, s.id < b.subscriptions.length
  fed : ∀ s ∈ b.subscriptions, s.fed = true

/-- The subject of a subscription. -/
def subject? (b : Bus) (id : Nat) : Option String :=
  (b.subscription? id).map (·.subject)

/-- A subscriber of a subject listens, and this is what waits for it. -/
def Listens (b : Bus) (id : Nat) (subject : String) (queue : List Bytes) : Prop :=
  ∃ s, b.subscription? id = some s ∧ s.subject = subject ∧ s.heard = true ∧ s.queue = queue

variable {b : Bus} {id id' : Nat} {subject : String} {queue : List Bytes}

theorem sound_empty : Sound {} where
  subscribable := rfl
  publishable := rfl
  numbered := by simp
  fed := by simp

theorem subscription?_mem {s : Subscription} (h : b.subscription? id = some s) :
    s ∈ b.subscriptions ∧ s.id = id :=
  ⟨List.mem_of_find?_eq_some h, by simpa using List.find?_some h⟩

theorem Listens.subject? (h : b.Listens id subject queue) : b.subject? id = some subject := by
  obtain ⟨s, hs, rfl, -⟩ := h
  rw [Bus.subject?, hs]
  rfl

/-! ## Changing subscriptions -/

/-- The bus after every subscription has changed. -/
def mapped (b : Bus) (f : Subscription → Subscription) : Bus :=
  { b with subscriptions := b.subscriptions.map f }

/-- A change that leaves a subscription what it is. -/
structure Keeps (f : Subscription → Subscription) : Prop where
  id : ∀ s, (f s).id = s.id
  subject : ∀ s, (f s).subject = s.subject
  fed : ∀ s, (f s).fed = s.fed

section Mapped

variable {f : Subscription → Subscription}

theorem subscription?_mapped (hf : Keeps f) (id : Nat) :
    (b.mapped f).subscription? id = (b.subscription? id).map f := by
  have hsame : (fun s => decide (s.id = id)) ∘ f = fun s => decide (s.id = id) := by
    funext s
    rw [Function.comp, hf.id]
  rw [subscription?, mapped, List.find?_map, hsame]
  rfl

theorem Sound.mapped (h : b.Sound) (hf : Keeps f) : (b.mapped f).Sound where
  subscribable := h.subscribable
  publishable := h.publishable
  numbered := by
    intro s hs
    obtain ⟨old, hold, rfl⟩ := List.mem_map.1 hs
    rw [hf.id, Bus.mapped, List.length_map]
    exact h.numbered old hold
  fed := by
    intro s hs
    obtain ⟨old, hold, rfl⟩ := List.mem_map.1 hs
    rw [hf.fed]
    exact h.fed old hold

theorem subject?_mapped (hf : Keeps f) (id : Nat) : (b.mapped f).subject? id = b.subject? id := by
  rw [subject?, subscription?_mapped hf, subject?]
  cases b.subscription? id with
  | none => rfl
  | some s => simp [hf.subject]

/-- A change that does not touch a subscription leaves its subscriber alone. -/
theorem Listens.mapped (h : b.Listens id subject queue) (hf : Keeps f)
    (hsame : ∀ s, s.id = id → s.subject = subject → f s = s) :
    (b.mapped f).Listens id subject queue := by
  obtain ⟨s, hs, hsubject, hheard, hqueue⟩ := h
  refine ⟨s, ?_, hsubject, hheard, hqueue⟩
  rw [subscription?_mapped hf, hs, Option.map_some, hsame s (subscription?_mem hs).2 hsubject]

end Mapped

/-! ## The calls -/

theorem keeps_spread (subject : String) (data : Bytes) :
    Keeps fun s => if reaches subject s then { s with queue := s.queue ++ [data] } else s where
  id s := by split <;> rfl
  subject s := by split <;> rfl
  fed s := by split <;> rfl

theorem keeps_update (id : Nat) {f : Subscription → Subscription} (hf : Keeps f) :
    Keeps fun s => if s.id = id then f s else s where
  id s := by
    split
    · exact hf.id s
    · rfl
  subject s := by
    split
    · exact hf.subject s
    · rfl
  fed s := by
    split
    · exact hf.fed s
    · rfl

theorem keeps_advance (id : Nat) :
    Keeps fun s => if s.id = id then { s with queue := s.queue.drop 1 } else s :=
  keeps_update id ⟨fun _ => rfl, fun _ => rfl, fun _ => rfl⟩

theorem keeps_leave (id : Nat) :
    Keeps fun s => if s.id = id then { s with queue := [], heard := false } else s :=
  keeps_update id ⟨fun _ => rfl, fun _ => rfl, fun _ => rfl⟩

/-- What a call leaves of the bus: it stays sound, and every subscription keeps its subject. -/
structure Extends (b b' : Bus) : Prop where
  sound : b'.Sound
  subject? : ∀ id subject, b.subject? id = some subject → b'.subject? id = some subject

theorem Extends.refl (h : b.Sound) : b.Extends b :=
  ⟨h, fun _ _ h => h⟩

theorem Extends.trans {b' b'' : Bus} (h : b.Extends b') (h' : b'.Extends b'') : b.Extends b'' :=
  ⟨h'.sound, fun id subject hs => h'.subject? id subject (h.subject? id subject hs)⟩

theorem Sound.extends_mapped (h : b.Sound) {f : Subscription → Subscription} (hf : Keeps f) :
    b.Extends (b.mapped f) :=
  ⟨h.mapped hf, fun id _ hs => (subject?_mapped hf id).trans hs⟩

theorem Sound.spread (h : b.Sound) (subject : String) (data : Bytes) :
    b.Extends (b.spread subject data) :=
  h.extends_mapped (keeps_spread subject data)

theorem Sound.advance (h : b.Sound) (id : Nat) : b.Extends (b.advance id) :=
  h.extends_mapped (keeps_advance id)

theorem Sound.leave (h : b.Sound) (id : Nat) : b.Extends (b.leave id) :=
  h.extends_mapped (keeps_leave id)

/-- Calls are noted and nothing more. -/
theorem Sound.calls (h : b.Sound) (calls : List BusCall) : b.Extends { b with calls } :=
  ⟨⟨h.subscribable, h.publishable, h.numbered, h.fed⟩, fun _ _ hs => hs⟩

theorem Sound.publish_eq (h : b.Sound) (subject : String) (data : Bytes) :
    b.publish subject data =
      (.ok (),
        { b with calls := b.calls ++ [BusCall.publish subject data] }.spread subject data) := by
  simp [publish, h.publishable]

theorem Sound.publish (h : b.Sound) (subject : String) (data : Bytes) :
    b.Extends (b.publish subject data).2 := by
  rw [h.publish_eq]
  have hnoted := h.calls (b.calls ++ [.publish subject data])
  exact hnoted.trans (hnoted.sound.spread subject data)

theorem Sound.subscribe_eq (h : b.Sound) (subject : String) :
    b.subscribe subject = (.ok b.subscriptions.length,
      { b with
        calls := b.calls ++ [.subscribe subject]
        subscriptions := b.subscriptions ++ [{ id := b.subscriptions.length, subject }] }) := by
  simp [subscribe, h.subscribable]

theorem subscription?_subscribe_of_some (h : b.Sound) (subject : String) {s : Subscription}
    (hs : b.subscription? id = some s) :
    (b.subscribe subject).2.subscription? id = some s := by
  rw [h.subscribe_eq, subscription?, List.find?_append]
  rw [subscription?] at hs
  rw [hs]
  rfl

theorem subscription?_subscribe_self (h : b.Sound) (subject : String) :
    (b.subscribe subject).2.subscription? b.subscriptions.length =
      some { id := b.subscriptions.length, subject } := by
  have hnew : b.subscriptions.find? (·.id = b.subscriptions.length) = none := by
    rw [List.find?_eq_none]
    intro s hs he
    exact absurd (h.numbered s hs) (Nat.lt_irrefl _ <| of_decide_eq_true he ▸ ·)
  rw [h.subscribe_eq, subscription?, List.find?_append, hnew]
  simp

theorem Sound.subscribe (h : b.Sound) (subject : String) :
    b.Extends (b.subscribe subject).2 where
  sound := by
    rw [h.subscribe_eq]
    refine ⟨h.subscribable, h.publishable, fun s hs => ?_, fun s hs => ?_⟩
    · rw [List.length_append, List.length_singleton]
      rcases List.mem_append.1 hs with hs | hs
      · exact Nat.lt_succ_of_lt (h.numbered s hs)
      · rw [List.mem_singleton.1 hs]
        exact Nat.lt_succ_self _
    · rcases List.mem_append.1 hs with hs | hs
      · exact h.fed s hs
      · rw [List.mem_singleton.1 hs]
  subject? := by
    intro id subject' hs
    obtain ⟨s, hfound, rfl⟩ := Option.map_eq_some_iff.1 hs
    rw [Bus.subject?, subscription?_subscribe_of_some h subject hfound]
    rfl

/-! ## Listeners -/

theorem listens_subscribe (h : b.Sound) (subject : String) :
    (b.subscribe subject).2.Listens b.subscriptions.length subject [] :=
  ⟨_, subscription?_subscribe_self h subject, rfl, rfl, rfl⟩

namespace Listens

variable (h : b.Listens id subject queue)
include h

theorem subscribe (hb : b.Sound) (other : String) :
    (b.subscribe other).2.Listens id subject queue := by
  obtain ⟨s, hs, hs'⟩ := h
  exact ⟨s, subscription?_subscribe_of_some hb other hs, hs'⟩

theorem spread_self (hb : b.Sound) (data : Bytes) :
    (b.spread subject data).Listens id subject (queue ++ [data]) := by
  obtain ⟨s, hs, rfl, hheard, rfl⟩ := h
  have hreached : reaches s.subject s = true := by
    simp [reaches, hheard, hb.fed s (subscription?_mem hs).1]
  refine ⟨{ s with queue := s.queue ++ [data] }, ?_, rfl, hheard, rfl⟩
  have hmapped := subscription?_mapped (b := b) (keeps_spread s.subject data) id
  rw [hs, Option.map_some, if_pos hreached] at hmapped
  exact hmapped

theorem spread_of_ne {other : String} (hother : other ≠ subject) (data : Bytes) :
    (b.spread other data).Listens id subject queue := by
  apply h.mapped (keeps_spread other data)
  intro s _ hsubject
  have hreached : reaches other s = false := by
    simp [reaches, hsubject, hother.symm]
  rw [if_neg (by simp [hreached])]

theorem calls (calls : List BusCall) : Listens { b with calls } id subject queue :=
  h

theorem publish_self (hb : b.Sound) (data : Bytes) :
    (b.publish subject data).2.Listens id subject (queue ++ [data]) := by
  rw [hb.publish_eq]
  exact (h.calls _).spread_self (hb.calls _).sound data

theorem publish_of_ne (hb : b.Sound) {other : String} (hother : other ≠ subject) (data : Bytes) :
    (b.publish other data).2.Listens id subject queue := by
  rw [hb.publish_eq]
  exact (h.calls _).spread_of_ne hother data

theorem advance_self : (b.advance id).Listens id subject (queue.drop 1) := by
  obtain ⟨s, hs, hsubject, hheard, rfl⟩ := h
  refine ⟨{ s with queue := s.queue.drop 1 }, ?_, hsubject, hheard, rfl⟩
  have hmapped := subscription?_mapped (b := b) (keeps_advance id) id
  rw [hs, Option.map_some, if_pos (subscription?_mem hs).2] at hmapped
  exact hmapped

/-- A subscriber of another subject is another one. -/
theorem ne_of_subject? {other : String} (hid : b.subject? id' = some other)
    (hother : other ≠ subject) : id' ≠ id := by
  rintro rfl
  rw [h.subject?] at hid
  exact hother (Option.some.inj hid).symm

theorem advance_of_ne (hid : id' ≠ id) : (b.advance id').Listens id subject queue := by
  apply h.mapped (keeps_advance id')
  intro s hs _
  rw [if_neg (hs ▸ hid.symm)]

theorem leave_of_ne (hid : id' ≠ id) : (b.leave id').Listens id subject queue := by
  apply h.mapped (keeps_leave id')
  intro s hs _
  rw [if_neg (hs ▸ hid.symm)]

theorem queue_eq : ((b.subscription? id).map (·.queue)).getD [] = queue := by
  obtain ⟨s, hs, -, -, rfl⟩ := h
  rw [hs]
  rfl

/-- What a listener finds stands first in its queue. -/
theorem eq_cons_of_reading {data : Bytes} (hread : b.reading id = .data data) :
    ∃ rest, queue = data :: rest := by
  obtain ⟨s, hs, -, -, rfl⟩ := h
  simp only [reading, hs] at hread
  cases hqueue : s.queue with
  | cons first rest =>
      rw [hqueue] at hread
      cases hread
      exact ⟨rest, rfl⟩
  | nil =>
      rw [hqueue] at hread
      dsimp only at hread
      split at hread <;> cases hread

end Listens

theorem Listens.reading_cons {data : Bytes} {rest : List Bytes}
    (h : b.Listens id subject (data :: rest)) : b.reading id = .data data := by
  obtain ⟨s, hs, -, -, hqueue⟩ := h
  simp only [reading, hs, hqueue]

/-- No subscription of a sound bus ends. -/
theorem Sound.reading_ne_ended (h : b.Sound) (hid : b.subject? id = some subject) :
    b.reading id ≠ .ended := by
  obtain ⟨s, hs, -⟩ := Option.map_eq_some_iff.1 hid
  simp only [reading, hs, h.fed s (subscription?_mem hs).1, if_true]
  cases s.queue with
  | cons data rest => exact Reading.noConfusion
  | nil => exact Reading.noConfusion

end Bus

end GossipDirectory
