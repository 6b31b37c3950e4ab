import GossipDirectory.Proofs.Bus.Subscriptions
import GossipDirectory.Proofs.Collection.Runs

/-!
# The record of calls

A bus notes the calls of its users in their order, so what was published under a subject, and what
of it after somebody had subscribed, can be read off the record. A subscriber that was there from
the first subscription on has all of the latter: it took a first part, and the rest waits for it.
-/

namespace GossipDirectory

namespace Bus

/-- What calls published under a subject. -/
def published (subject : String) (calls : List BusCall) : List Bytes :=
  calls.filterMap fun
    | .publish s data => if s = subject then some data else none
    | .subscribe _ => none

/-- What calls published under a subject after the first subscription to it. -/
def publishedSince (subject : String) (calls : List BusCall) : List Bytes :=
  published subject (since (.subscribe subject) calls)

variable {b b' : Bus} {subject : String} {calls more : List BusCall} {id n : Nat}
  {queue : List Bytes}

theorem published_append (subject : String) (calls more : List BusCall) :
    published subject (calls ++ more) = published subject calls ++ published subject more :=
  List.filterMap_append

theorem published_subscribe (subject other : String) :
    published subject [.subscribe other] = [] :=
  rfl

theorem published_publish_self (subject : String) (data : Bytes) :
    published subject [.publish subject data] = [data] := by
  simp [published]

theorem published_publish_of_ne {other : String} (h : other ≠ subject) (data : Bytes) :
    published subject [.publish other data] = [] := by
  simp [published, h]

/-- Before the first subscription there is nothing. -/
theorem publishedSince_of_not_mem (h : .subscribe subject ∉ calls) :
    publishedSince subject calls = [] := by
  rw [publishedSince, since_of_not_mem h]
  rfl

theorem publishedSince_append_of_mem (h : .subscribe subject ∈ calls) (more : List BusCall) :
    publishedSince subject (calls ++ more) =
      publishedSince subject calls ++ published subject more := by
  rw [publishedSince, since_append_of_mem h, published_append, publishedSince]

/-- The first subscription itself publishes nothing. -/
theorem publishedSince_subscribe (h : .subscribe subject ∉ calls) (other : String) :
    publishedSince subject (calls ++ [.subscribe other]) = [] := by
  rw [publishedSince, since_snoc_of_not_mem h]
  rfl

theorem publishedSince_suffix (subject : String) (calls : List BusCall) :
    publishedSince subject calls <:+ published subject calls := by
  obtain ⟨before, hbefore⟩ := since_suffix (.subscribe subject) calls
  refine ⟨published subject before, ?_⟩
  rw [publishedSince, ← published_append, hbefore]

/-- Nothing is missed by a further call exactly if nothing was before and the call does not publish
to nobody. -/
theorem published_eq_since_snoc_iff (c : BusCall) :
    published subject (calls ++ [c]) = publishedSince subject (calls ++ [c]) ↔
      published subject calls = publishedSince subject calls ∧
        (published subject [c] ≠ [] → .subscribe subject ∈ calls) := by
  by_cases hsubscribed : .subscribe subject ∈ calls
  · rw [published_append, publishedSince_append_of_mem hsubscribed, List.append_left_inj]
    simp [hsubscribed]
  · have hnone := publishedSince_of_not_mem hsubscribed
    cases c with
    | subscribe other =>
        rw [published_append, published_subscribe, publishedSince_subscribe hsubscribed, hnone,
          List.append_nil]
        simp
    | publish other data =>
        have hstill : .subscribe subject ∉ calls ++ [BusCall.publish other data] := by
          simp [hsubscribed]
        rw [published_append, publishedSince_of_not_mem hstill, hnone, List.append_eq_nil_iff]
        simp [hsubscribed]

/-! ## Listeners and the record -/

/-- A change of the bus by which some calls are made, as the listeners of a subject see it. -/
structure Tells (b b' : Bus) (subject : String) (more : List BusCall) : Prop where
  calls : b'.calls = b.calls ++ more
  listens : ∀ id queue, b.Listens id subject queue →
    b'.Listens id subject (queue ++ published subject more)

theorem Tells.silent (hcalls : b'.calls = b.calls)
    (h : ∀ id queue, b.Listens id subject queue → b'.Listens id subject queue) :
    b.Tells b' subject [] where
  calls := by rw [hcalls, List.append_nil]
  listens id queue hl := by
    rw [published, List.filterMap_nil, List.append_nil]
    exact h id queue hl

theorem Tells.refl (b : Bus) (subject : String) : b.Tells b subject [] :=
  .silent rfl fun _ _ hl => hl

/-- A subscriber that takes what it finds is not noticed by those of other subjects. -/
theorem tells_advance {other : String} (hid : b.subject? id = some other)
    (hother : other ≠ subject) : b.Tells (b.advance id) subject [] :=
  .silent rfl fun _ _ hl => hl.advance_of_ne (hl.ne_of_subject? hid hother)

theorem tells_leave {other : String} (hid : b.subject? id = some other)
    (hother : other ≠ subject) : b.Tells (b.leave id) subject [] :=
  .silent rfl fun _ _ hl => hl.leave_of_ne (hl.ne_of_subject? hid hother)

theorem Sound.tells_publish (h : b.Sound) (subject other : String) (data : Bytes) :
    b.Tells (b.publish other data).2 subject [.publish other data] where
  calls := by
    rw [h.publish_eq]
    rfl
  listens id queue hl := by
    by_cases hsame : other = subject
    · subst hsame
      rw [published_publish_self]
      exact hl.publish_self h data
    · rw [published_publish_of_ne hsame, List.append_nil]
      exact hl.publish_of_ne h hsame data

theorem Sound.tells_subscribe (h : b.Sound) (subject other : String) :
    b.Tells (b.subscribe other).2 subject [.subscribe other] where
  calls := by rw [h.subscribe_eq]
  listens id queue hl := by
    rw [published_subscribe, List.append_nil]
    exact hl.subscribe h other

/-- A subscriber has what was published since the first subscription: it took so many items, and
the rest waits. -/
structure HasSince (b : Bus) (id : Nat) (subject : String) (taken : Nat) : Prop where
  subscribed : .subscribe subject ∈ b.calls
  taken_le : taken ≤ (publishedSince subject b.calls).length
  listens : b.Listens id subject ((publishedSince subject b.calls).drop taken)

theorem HasSince.tells (h : b.HasSince id subject n) (ht : b.Tells b' subject calls) :
    b'.HasSince id subject n := by
  have hsince := publishedSince_append_of_mem h.subscribed calls
  rw [← ht.calls] at hsince
  constructor
  case subscribed =>
    rw [ht.calls]
    exact List.mem_append_left _ h.subscribed
  case taken_le =>
    rw [hsince, List.length_append]
    exact Nat.le_add_right_of_le h.taken_le
  case listens =>
    rw [hsince, List.drop_append_of_le_length h.taken_le]
    exact ht.listens _ _ h.listens

/-- A subscriber that takes what it finds still has everything. -/
theorem HasSince.advance (h : b.HasSince id subject n) {data : Bytes}
    (hread : b.reading id = .data data) : (b.advance id).HasSince id subject (n + 1) := by
  obtain ⟨rest, hrest⟩ := h.listens.eq_cons_of_reading hread
  have hlt : n < (publishedSince subject b.calls).length := by
    apply Nat.lt_of_not_le
    intro hle
    rw [List.drop_eq_nil_of_le hle] at hrest
    cases hrest
  constructor
  case subscribed => exact h.subscribed
  case taken_le => exact hlt
  case listens =>
    have hl := h.listens.advance_self
    rw [List.drop_drop] at hl
    exact hl

/-- A first subscriber starts with nothing. -/
theorem hasSince_subscribe (hb : b.Sound) (h : .subscribe subject ∉ b.calls) :
    (b.subscribe subject).2.HasSince b.subscriptions.length subject 0 := by
  have hcalls := (hb.tells_subscribe subject subject).calls
  have hnone : publishedSince subject (b.subscribe subject).2.calls = [] := by
    rw [hcalls]
    exact publishedSince_subscribe h subject
  constructor
  case subscribed =>
    rw [hcalls]
    exact List.mem_append_right _ (List.mem_singleton_self _)
  case taken_le => exact Nat.zero_le _
  case listens =>
    rw [hnone]
    exact listens_subscribe hb subject

/-- A subscription has received everything that was published under its subject: a first part was
taken, and the rest waits. Without a subscription nothing may have been published. -/
def Received (b : Bus) (subscription : Option Nat) (subject : String) (taken : Nat) : Prop :=
  match subscription with
  | some id =>
    taken ≤ (published subject b.calls).length ∧
      b.Listens id subject ((published subject b.calls).drop taken)
  | none => published subject b.calls = []

theorem HasSince.received_iff (h : b.HasSince id subject n) :
    b.Received (some id) subject n ↔
      published subject b.calls = publishedSince subject b.calls := by
  constructor
  · rintro ⟨hle, hl⟩
    have hqueue := hl.queue_eq.symm.trans h.listens.queue_eq
    have hlengths := congrArg List.length hqueue
    rw [List.length_drop, List.length_drop] at hlengths
    have htaken := h.taken_le
    exact ((publishedSince_suffix subject b.calls).eq_of_length (by omega)).symm
  · intro he
    rw [Received, he]
    exact ⟨h.taken_le, h.listens⟩

end Bus

end GossipDirectory
