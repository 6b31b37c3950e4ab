import GossipDirectory.Proofs.Directory.History
import GossipDirectory.Proofs.Directory.Slots
import Mathlib.Data.List.Induction

/-!
# Listings after a run

After any run whose times do not decrease, a key lists the values that an addition sustains, each
once, in the order in which their presence started. Listings and evictions in between do not show,
nor does what happened to other keys.

## Implementation notes

The induction is on the run from its end: the last call changes the living values of the key in one
of three ways, and the sustaining additions in the same way.
-/

namespace GossipDirectory

namespace Directory

/-! ## One call -/

section Effect

variable {d : Directory} {e : Event} {key value : String} {lapse t : Millis}

theorem Distinct.effect (hd : d.Distinct) (e : Event) : (e.effect d).Distinct := by
  unfold Event.effect
  split
  case h_1 k v life hcall =>
    split
    case h_1 d' h => exact hd.add h
    case h_2 => exact hd
  case h_2 k v hcall => exact hd.remove k v
  case h_3 k hcall => exact hd.list k e.time
  case h_4 hcall => exact hd.evict e.time

theorem distinct_after (run : List Event) : (after run).Distinct := by
  induction run using List.reverseRecOn with
  | nil => exact List.nodup_nil
  | append_singleton run e ih =>
      rw [after, List.foldl_append]
      exact ih.effect e

/-- A call that neither adds to the key nor removes from it is not seen at its time or later. -/
theorem living_effect_of_none (hd : d.Distinct) (ha : e.added? key = none)
    (hr : e.removed? key = none) (ht : e.time ≤ t) :
    (e.effect d).living key t = d.living key t := by
  unfold Event.effect
  split
  case h_1 k v life hcall =>
    split
    case h_1 d' h =>
      have hk : key ≠ k := by
        rintro rfl
        have hsome := Event.added?_eq_some_iff.2 ⟨life, hcall, (add_eq_ok_iff.1 h).1, rfl⟩
        rw [ha] at hsome
        cases hsome
      exact living_congr (slot?_add_of_ne h hk) t
    case h_2 => rfl
  case h_2 k v hcall =>
    have hk : key ≠ k := by
      rintro rfl
      have hsome := Event.removed?_eq_some_iff.2 hcall
      rw [hr] at hsome
      cases hsome
    exact living_congr (slot?_remove_of_ne hk d v) t
  case h_3 k hcall =>
    by_cases hk : key = k
    · subst hk
      exact living_of_dropped (slot?_list_self d key e.time) ht
    · exact living_congr (slot?_list_of_ne hk d e.time) t
  case h_4 hcall => exact living_of_dropped (slot?_evict hd key e.time) ht

theorem living_effect_of_removed (hr : e.removed? key = some value) (d : Directory)
    (t : Millis) : (e.effect d).living key t = (d.living key t).filter (· ≠ value) := by
  rw [Event.effect, Event.removed?_eq_some_iff.1 hr]
  exact living_remove_self d key value t

theorem living_effect_of_added (ha : e.added? key = some (value, lapse)) (d : Directory)
    (t : Millis) :
    (e.effect d).living key t =
      if t < lapse then including value (d.living key e.time) else [] := by
  obtain ⟨life, hcall, hlife, rfl⟩ := Event.added?_eq_some_iff.1 ha
  obtain ⟨d', h⟩ := (add_succeeds_iff d key value life e.time).2 hlife
  rw [Event.effect, hcall]
  simp only [h]
  exact living_add_self h t

/-- Directories in which a key has the same living values are told apart by no call. -/
theorem living_effect_congr {d' : Directory} (hd : d.Distinct) (hd' : d'.Distinct)
    (ht : e.time ≤ t) (hnow : d.living key e.time = d'.living key e.time)
    (hlater : d.living key t = d'.living key t) :
    (e.effect d).living key t = (e.effect d').living key t := by
  cases ha : e.added? key with
  | none =>
      cases hr : e.removed? key with
      | none => rw [living_effect_of_none hd ha hr ht, living_effect_of_none hd' ha hr ht, hlater]
      | some removed => rw [living_effect_of_removed hr, living_effect_of_removed hr, hlater]
  | some addition => rw [living_effect_of_added ha, living_effect_of_added ha, hnow]

end Effect

/-! ## Lists of values in the order of their positions -/

/-- A list has each value of a family of positions once, in the order of the first positions. -/
structure Describes (S : String → Nat → Prop) (listed : List String) : Prop where
  nodup : listed.Nodup
  mem_iff : ∀ v, v ∈ listed ↔ ∃ i, S v i
  ordered : listed.Pairwise fun v w =>
    ∀ i j, IsLeast {n | S v n} i → IsLeast {n | S w n} j → i < j

namespace Describes

variable {S S' : String → Nat → Prop} {listed : List String}

theorem congr (h : Describes S listed) (hS : ∀ v i, S' v i ↔ S v i) : Describes S' listed := by
  have heq : S' = S := by
    funext v i
    exact propext (hS v i)
  rw [heq]
  exact h

theorem nil (hS : ∀ v i, ¬ S v i) : Describes S [] := by
  constructor
  · exact List.nodup_nil
  · intro v
    simp [hS]
  · exact List.Pairwise.nil

/-- Values keep their positions when another one goes. -/
theorem filter (h : Describes S listed) (w : String) :
    Describes (fun v i => S v i ∧ v ≠ w) (listed.filter (· ≠ w)) := by
  constructor
  · exact h.nodup.filter _
  · intro v
    simp [h.mem_iff]
  · have hleft : ∀ v ∈ listed.filter (· ≠ w), v ≠ w := fun v hv => by
      simpa using (List.mem_filter.1 hv).2
    refine (h.ordered.filter _).imp_of_mem ?_
    intro v u hv hu hvu i j hi hj
    simp only [and_iff_left (hleft v hv)] at hi
    simp only [and_iff_left (hleft u hu)] at hj
    exact hvu i j hi hj

/-- A value that is present already keeps its first position. -/
theorem isLeast_of_mem {w : String} {n : Nat} (h : Describes S listed)
    (hS : ∀ v i, S v i → i < n) {v : String} (hv : v ∈ listed) {i : Nat}
    (hi : IsLeast {i | S v i ∨ (v = w ∧ i = n)} i) : IsLeast {i | S v i} i := by
  obtain ⟨j, hj⟩ := (h.mem_iff v).1 hv
  constructor
  · rcases hi.1 with hold | ⟨-, rfl⟩
    · exact hold
    · exact absurd (hi.2 (Or.inl hj)) (Nat.not_le.2 (hS v j hj))
  · intro k hk
    exact hi.2 (Or.inl hk)

/-- A value at a position after all others comes last, unless it is present already. -/
theorem including {w : String} {n : Nat} (h : Describes S listed) (hS : ∀ v i, S v i → i < n) :
    Describes (fun v i => S v i ∨ (v = w ∧ i = n)) (including w listed) := by
  have hold : listed.Pairwise fun v u => ∀ i j,
      IsLeast {i | S v i ∨ (v = w ∧ i = n)} i → IsLeast {i | S u i ∨ (u = w ∧ i = n)} j →
        i < j := by
    refine h.ordered.imp_of_mem ?_
    intro v u hv hu hvu i j hi hj
    exact hvu i j (h.isLeast_of_mem hS hv hi) (h.isLeast_of_mem hS hu hj)
  constructor
  · unfold Directory.including
    split
    case isTrue => exact h.nodup
    case isFalse hw =>
      rw [List.nodup_append]
      refine ⟨h.nodup, List.pairwise_singleton _ _, ?_⟩
      rintro v hv u hu rfl
      exact hw (List.mem_singleton.1 hu ▸ hv)
  · intro v
    simp [h.mem_iff, exists_or]
  · unfold Directory.including
    split
    case isTrue => exact hold
    case isFalse hw =>
      rw [List.pairwise_append]
      refine ⟨hold, List.pairwise_singleton _ _, ?_⟩
      intro v hv u hu i j hi hj
      rw [List.mem_singleton] at hu
      subst hu
      have hlt : i < n := hS v i (h.isLeast_of_mem hS hv hi).1
      rcases hj.1 with hj | ⟨-, rfl⟩
      · exact absurd ((h.mem_iff u).2 ⟨j, hj⟩) hw
      · exact hlt

end Describes

/-! ## A whole run -/

/-- The times of a run do not decrease, nor does the given time after them. -/
structure Timely (run : List Event) (t : Millis) : Prop where
  sorted : run.Pairwise fun e f => e.time ≤ f.time
  past : ∀ e ∈ run, e.time ≤ t

theorem timely_snoc_iff {run : List Event} {e : Event} {t : Millis} :
    Timely (run ++ [e]) t ↔ Timely run e.time ∧ e.time ≤ t := by
  constructor
  · rintro ⟨hsorted, hpast⟩
    rw [List.pairwise_append] at hsorted
    have hbefore : ∀ f ∈ run, f.time ≤ e.time := fun f hf =>
      hsorted.2.2 f hf e (List.mem_singleton_self e)
    exact ⟨⟨hsorted.1, hbefore⟩, hpast e (by simp)⟩
  · rintro ⟨⟨hsorted, hbefore⟩, het⟩
    constructor
    · rw [List.pairwise_append]
      exact ⟨hsorted, List.pairwise_singleton _ _, by simpa using hbefore⟩
    · intro f hf
      rw [List.mem_append, List.mem_singleton] at hf
      rcases hf with hf | rfl
      · exact Nat.le_trans (hbefore f hf) het
      · exact het

theorem Timely.mono {run : List Event} {t t' : Millis} (h : Timely run t) (ht : t ≤ t') :
    Timely run t' :=
  ⟨h.sorted, fun e he => Nat.le_trans (h.past e he) ht⟩

theorem after_snoc (run : List Event) (e : Event) : after (run ++ [e]) = e.effect (after run) := by
  rw [after, List.foldl_append]
  rfl

/-- The living values of a key are those that an addition of the run sustains. -/
theorem describes_living (key : String) {run : List Event} {t : Millis} (h : Timely run t) :
    Describes (Sustains key t run) ((after run).living key t) := by
  induction run using List.reverseRecOn generalizing t with
  | nil =>
      apply Describes.nil
      intro v i hs
      exact absurd (sustains_lt hs) (Nat.not_lt_zero i)
  | append_singleton run e ih =>
      obtain ⟨hrun, het⟩ := timely_snoc_iff.1 h
      rw [after_snoc]
      cases ha : e.added? key with
      | none =>
          cases hr : e.removed? key with
          | none =>
              rw [living_effect_of_none (distinct_after run) ha hr het]
              exact (ih (hrun.mono het)).congr fun v i => sustains_snoc_of_none ha hr run i
          | some removed =>
              rw [living_effect_of_removed hr]
              exact ((ih (hrun.mono het)).filter removed).congr fun v i =>
                sustains_snoc_of_removed ha hr run i
      | some addition =>
          obtain ⟨added, lapse⟩ := addition
          have hr := Event.removed?_of_added ha
          rw [living_effect_of_added ha]
          by_cases hlapse : t < lapse
          · rw [if_pos hlapse]
            refine ((ih hrun).including fun v i => sustains_lt).congr fun v i => ?_
            rw [sustains_snoc_of_added ha hr, and_iff_left hlapse]
          · rw [if_neg hlapse]
            apply Describes.nil
            intro v i hs
            exact hlapse ((sustains_snoc_of_added ha hr run i).1 hs).2

/-- Only the additions to a key and the removals from it decide its living values. -/
theorem living_filter_touches (key : String) {run : List Event} {t : Millis} (h : Timely run t) :
    (after (run.filter (·.touches key))).living key t = (after run).living key t := by
  induction run using List.reverseRecOn generalizing t with
  | nil => rfl
  | append_singleton run e ih =>
      obtain ⟨hrun, het⟩ := timely_snoc_iff.1 h
      have hd := distinct_after run
      rw [List.filter_append, after_snoc]
      cases htouch : e.touches key with
      | false =>
          obtain ⟨ha, hr⟩ := Event.touches_eq_false_iff.1 htouch
          rw [living_effect_of_none hd ha hr het]
          simpa [htouch] using ih (hrun.mono het)
      | true =>
          have hsnoc : after (run.filter (·.touches key) ++ [e].filter (·.touches key)) =
              e.effect (after (run.filter (·.touches key))) := by
            rw [← after_snoc]
            simp [htouch]
          rw [hsnoc]
          exact living_effect_congr (distinct_after _) hd het (ih hrun) (ih (hrun.mono het))

/-- What a key lists after a run: the sustained values, once each, by the start of their presence;
and this is the same after every run that adds to the key and removes from it in the same way. -/
theorem list_after (run : List Event) (key : String) {t : Millis} (h : Timely run t) :
    ((after run).list key t).1.Nodup ∧
      (∀ value, value ∈ ((after run).list key t).1 ↔ ∃ i, Sustains key t run value i) ∧
      ((after run).list key t).1.Pairwise
        (fun v w => ∀ i j, Starts key t run v i → Starts key t run w j → i < j) ∧
      ∀ other, Timely other t →
        other.filter (·.touches key) = run.filter (·.touches key) →
          ((after other).list key t).1 = ((after run).list key t).1 := by
  have hlisted := describes_living key h
  rw [list_eq_living]
  refine ⟨hlisted.nodup, hlisted.mem_iff, hlisted.ordered, ?_⟩
  intro other hother hsame
  calc
    ((after other).list key t).1 = (after other).living key t := list_eq_living _ _ _
    _ = (after (other.filter (·.touches key))).living key t :=
      (living_filter_touches key hother).symm
    _ = (after (run.filter (·.touches key))).living key t := by rw [hsame]
    _ = (after run).living key t := living_filter_touches key h

/-- A run in which one value is refreshed, a listing of the key and an eviction in between. -/
def refreshed : List Event :=
  [⟨0, .add "k" "a" 2000⟩, ⟨500, .add "k" "b" 1000⟩, ⟨700, .list "k"⟩, ⟨900, .add "l" "a" 1000⟩,
    ⟨1400, .add "k" "a" 1000⟩, ⟨1900, .evict⟩]

theorem refreshed_listed :
    Timely refreshed 2399 ∧ ((after refreshed).list "k" 2399).1 = ["a", "b"] ∧
      (∃ i, Sustains "k" 2399 refreshed "b" i) ∧
      ((after (refreshed.filter (·.touches "k"))).list "k" 2399).1 = ["a", "b"] := by
  have h : Timely refreshed 2399 := ⟨by decide, by decide⟩
  have hfiltered : Timely (refreshed.filter (·.touches "k")) 2399 := ⟨by decide, by decide⟩
  have hlisted : ((after refreshed).list "k" 2399).1 = ["a", "b"] := by decide
  obtain ⟨-, hmem, -, hframe⟩ := list_after refreshed "k" h
  refine ⟨h, hlisted, ?_, ?_⟩
  · apply (hmem "b").1
    rw [hlisted]
    decide
  · rw [hframe _ hfiltered (by decide), hlisted]

end Directory

end GossipDirectory
