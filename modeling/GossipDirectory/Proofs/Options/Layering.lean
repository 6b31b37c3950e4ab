import GossipDirectory.Proofs.Collection.Interleaving
import GossipDirectory.Proofs.Options.Precedence
import Mathlib.Data.List.Dedup
import Mathlib.Data.List.Induction

/-!
# Stacks of layers

A layer gives a setting unless its value there is blank. Of all layers put on top of each other the
last one that gives a setting decides it. Hence layers can be put together in any grouping before
they are used, and of a layer that comes more than once only the last use counts.
-/

namespace GossipDirectory

/-- What comes last stays last when all but the last copies of an element go. -/
theorem lastSome_dedup {α β : Type} [DecidableEq α] (f : α → Option β) (l : List α) :
    lastSome f l.dedup = lastSome f l := by
  induction l with
  | nil => rfl
  | cons x l ih =>
      by_cases hx : x ∈ l
      · rw [List.dedup_cons_of_mem hx, ih, lastSome_cons]
        -- A later copy gives whatever this one does, so this one decides nothing.
        cases hlast : lastSome f l with
        | some y => rfl
        | none => rw [lastSome_eq_none_iff.1 hlast x hx, Option.or_none]
      · rw [List.dedup_cons_of_notMem hx, lastSome_cons, lastSome_cons, ih]

namespace Flag

/-- What a layer gives for a setting: the value that it has there, unless it is blank. -/
def given? (f : Flag) (x : f.Value) : Option f.Value :=
  if x = f.empty then none else some x

@[simp] theorem given?_empty (f : Flag) : f.given? f.empty = none :=
  if_pos rfl

theorem getD_given? (f : Flag) (x : f.Value) : (f.given? x).getD f.empty = x := by
  unfold given?
  split
  case isTrue h => exact h.symm
  case isFalse => rfl

/-- A setting under a layer is what the layer gives, or else what it was. -/
theorem merge_eq_getD (f : Flag) (below layer : f.Value) :
    f.merge below layer = (f.given? layer).getD below := by
  rw [given?, apply_ite (Option.getD · below)]
  cases f with
  | text f => rfl
  | port f | id f | size f => rfl
  | dhtServer =>
      cases layer with
      | false => exact Bool.or_false below
      | true => exact Bool.or_true below

end Flag

namespace Options

/-- The layer that gives nothing. -/
def blank : Options where
  logLevel := ""
  logFile := ""
  p2p :=
    { seed := "", bootstrap := "", hostname := "", listenPort := 0, lowWater := 0, highWater := 0
      room := "", dhtServerMode := false, peerstoreFile := "", socksProxy := "" }
  gossip :=
    { d := 0, dlo := 0, dhi := 0, dout := 0, dscore := 0, dlazy := 0, prunePeers := 0, limit := 0 }
  bus := { subject := "", childId := 0, childProcessCount := 0, natsHost := "", natsPort := 0 }

theorem setting_blank (f : Flag) : blank.setting f = f.empty := by
  cases f with
  | text f => cases f <;> rfl
  | port f => cases f <;> rfl
  | id f => cases f <;> rfl
  | size f => cases f <;> rfl
  | dhtServer => rfl

theorem merge_blank (o : Options) : o.merge blank = o := by
  refine ext_setting fun f _ => ?_
  rw [setting_merge, setting_blank, Flag.merge_eq_getD, Flag.given?_empty]
  rfl

theorem blank_merge (o : Options) : blank.merge o = o := by
  refine ext_setting fun f _ => ?_
  rw [setting_merge, setting_blank, Flag.merge_eq_getD, Flag.getD_given?]

instance : Std.Associative merge where
  assoc a b c := (merge_assoc a b c).symm

/-! ## Many layers -/

/-- Layers put together into one, the first one at the bottom. -/
def stack (layers : List Options) : Options :=
  layers.foldl merge blank

/-- The last layer that gives a setting decides it. -/
theorem setting_foldl_merge (o : Options) (layers : List Options) (f : Flag) :
    (layers.foldl merge o).setting f =
      (lastSome (fun layer => f.given? (layer.setting f)) layers).getD (o.setting f) := by
  induction layers using List.reverseRecOn with
  | nil => rfl
  | append_singleton layers layer ih =>
      rw [List.foldl_append, List.foldl_cons, List.foldl_nil, setting_merge, Flag.merge_eq_getD, ih,
        lastSome_snoc, Option.getD_or]

/-- Layers can be put together before they go on top of options. -/
theorem foldl_merge_eq_stack (o : Options) (layers : List Options) :
    layers.foldl merge o = o.merge (stack layers) := by
  calc
    layers.foldl merge o = layers.foldl merge (o.merge blank) := by rw [merge_blank]
    _ = o.merge (stack layers) := List.foldl_assoc

theorem foldl_merge_dedup (o : Options) (layers : List Options) :
    layers.dedup.foldl merge o = layers.foldl merge o := by
  refine ext_setting fun f _ => ?_
  rw [setting_foldl_merge, setting_foldl_merge, lastSome_dedup]

/-- A layer that comes once more at the end may be left out before that. -/
theorem merge_merge_self (a b : Options) : (a.merge b).merge a = b.merge a := by
  refine ext_setting fun f _ => ?_
  simp only [setting_merge, Flag.merge_eq_getD]
  cases ha : f.given? (a.setting f) with
  | some x => rfl
  | none =>
      have hblank : a.setting f = f.empty := by
        rw [← f.getD_given? (a.setting f), ha]
        rfl
      rw [hblank, Flag.getD_given?]

/-- Layers can be grouped at will, the blank layer changes nothing on either side, and using a layer
again makes its earlier use idle. So any number of layers can be put together group by group, and
only the last of several equal layers counts. -/
theorem layers_combine (a b c : Options) :
    (a.merge b).merge c = a.merge (b.merge c) ∧
      (blank.merge a = a ∧ a.merge blank = a) ∧
      (a.merge b).merge a = b.merge a ∧
      (∀ groups : List (List Options),
        groups.flatten.foldl merge a = (groups.map stack).foldl merge a) ∧
      ∀ layers : List Options, layers.foldl merge a = layers.dedup.foldl merge a := by
  refine ⟨(merge_assoc a b c).symm, ⟨blank_merge a, merge_blank a⟩, merge_merge_self a b,
    fun groups => ?_, fun layers => (foldl_merge_dedup a layers).symm⟩
  have hgroup : List.foldl merge = fun o group => o.merge (stack group) := by
    funext o group
    exact foldl_merge_eq_stack o group
  rw [List.foldl_flatten, List.foldl_map, hgroup]

end Options

end GossipDirectory
