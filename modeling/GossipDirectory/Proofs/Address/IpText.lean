import GossipDirectory.Address.Ip
import GossipDirectory.Proofs.Collection.Outcome

/-!
# Network addresses read back

Splitting undoes joining because no number holds the separator. An IPv6 address is written with at
most one gap, which stands for a run of zero groups, so filling the gap up to eight groups gives the
address again; an address of the mapped range is written with the gap in front.
-/

namespace GossipDirectory

/-! ## Splitting -/

theorem splitAt_eq_splitOn (separator : Char) (cs : List Char) :
    splitAt separator cs = cs.splitOn separator := by
  induction cs with
  | nil => rfl
  | cons c cs ih =>
      rw [splitAt, List.splitOn_cons_eq_if_modifyHead, ih]
      by_cases h : c = separator
      · rw [if_pos h, if_pos (beq_iff_eq.2 h)]
      · rw [if_neg h, if_neg (by simpa using h)]
        cases hpieces : cs.splitOn separator with
        | nil => exact absurd hpieces (List.splitOn_ne_nil separator cs)
        | cons piece pieces => rfl

/-- Splitting undoes joining. -/
theorem splitAt_intercalate {separator : Char} {pieces : List (List Char)}
    (h : ∀ p ∈ pieces, separator ∉ p) (hne : pieces ≠ []) :
    splitAt separator ([separator].intercalate pieces) = pieces := by
  rw [splitAt_eq_splitOn, List.splitOn_intercalate separator h hne]

theorem not_mem_of_mem_splitAt {separator : Char} {cs piece : List Char}
    (h : piece ∈ splitAt separator cs) : separator ∉ piece := by
  induction cs generalizing piece with
  | nil =>
      rw [List.mem_singleton.1 h]
      exact List.not_mem_nil
  | cons c cs ih =>
      rw [splitAt] at h
      split at h
      · rcases List.mem_cons.1 h with rfl | h
        · exact List.not_mem_nil
        · exact ih h
      · next hc =>
          cases hpieces : splitAt separator cs with
          | nil =>
              rw [hpieces] at h
              rw [List.mem_singleton.1 h, List.mem_singleton]
              exact Ne.symm hc
          | cons first rest =>
              rw [hpieces] at h ih
              rcases List.mem_cons.1 h with rfl | h
              · have hfirst := ih List.mem_cons_self
                rintro (_ | ⟨_, hmem⟩)
                · exact hc rfl
                · exact hfirst hmem
              · exact ih (List.mem_cons_of_mem first h)

/-! ## Numbers -/

namespace Decimal

theorem digitChar_eq {d : Nat} (h : d < 10) : digitChar d = Nat.digitChar d := by
  have all : ∀ d < 10, digitChar d = Nat.digitChar d := by decide
  exact all d h

theorem render_eq_toDigits (n : Nat) : render n = Nat.toDigits 10 n := by
  induction n using Nat.strongRecOn with
  | ind n ih =>
      rw [render]
      split
      · next h => rw [Nat.toDigits_of_lt_base h, digitChar_eq h]
      · next h =>
          rw [Nat.toDigits_of_base_le (by decide) (Nat.le_of_not_lt h), ih _ (by omega),
            digitChar_eq (Nat.mod_lt n (by decide))]

theorem isDigit_of_mem_render {n : Nat} {c : Char} (h : c ∈ render n) : c.isDigit = true := by
  rw [render_eq_toDigits] at h
  exact Nat.isDigit_of_mem_toDigits (by decide) (by decide) h

/-- A number holds no separator. -/
theorem not_mem_render {c : Char} (hc : c.isDigit = false) (n : Nat) : c ∉ render n := by
  intro h
  rw [isDigit_of_mem_render h] at hc
  cases hc

/-- A number other than zero starts with no zero. -/
theorem head?_render {n : Nat} (h : 0 < n) : (render n).head? ≠ some '0' := by
  induction n using Nat.strongRecOn with
  | ind n ih =>
      rw [render]
      split
      · next hlt =>
          have all : ∀ d < 10, 0 < d → [digitChar d].head? ≠ some '0' := by decide
          exact all n hlt h
      · next hge =>
          have hrest := ih (n / 10) (by omega) (by omega)
          cases hdigits : render (n / 10) with
          | nil => exact absurd hdigits (render_ne_nil _)
          | cons c cs =>
              rw [hdigits] at hrest
              exact hrest

end Decimal

namespace Ipv4

theorem byte?_render (b : UInt8) : byte? (Decimal.render b.toNat) = some b := by
  have hlength : (Decimal.render b.toNat).length ≤ 3 := by
    rw [Decimal.render_eq_toDigits, Nat.length_toDigits_le_iff (by decide) (by decide)]
    have := b.toNat_lt
    omega
  have hzero : ¬ (1 < (Decimal.render b.toNat).length ∧
      (Decimal.render b.toNat).head? = some '0') := by
    rintro ⟨hlong, hhead⟩
    have hpos : 0 < b.toNat := by
      apply Nat.pos_of_ne_zero
      intro h0
      rw [h0, Decimal.render] at hlong
      exact absurd hlong (by decide)
    exact Decimal.head?_render hpos hhead
  rw [byte?, if_neg (not_or.2 ⟨Nat.not_lt.2 hlength, hzero⟩), Decimal.ofChars?_render]
  simp [Option.filter, b.toNat_lt]

theorem render_eq_intercalate (ip : Ipv4) :
    ip.render = ['.'].intercalate [Decimal.render ip.a.toNat, Decimal.render ip.b.toNat,
      Decimal.render ip.c.toNat, Decimal.render ip.d.toNat] := by
  simp [render, List.intercalate]

/-- A written address reads back. -/
theorem parse?_render (ip : Ipv4) : parse? ip.render = some ip := by
  have hsplit : splitAt '.' ip.render = [Decimal.render ip.a.toNat, Decimal.render ip.b.toNat,
      Decimal.render ip.c.toNat, Decimal.render ip.d.toNat] := by
    rw [render_eq_intercalate]
    apply splitAt_intercalate _ (List.cons_ne_nil _ _)
    intro p hp
    simp only [List.mem_cons, List.not_mem_nil, or_false] at hp
    rcases hp with rfl | rfl | rfl | rfl <;> exact Decimal.not_mem_render (by decide) _
  rw [parse?, hsplit]
  simp only [byte?_render, Option.bind_eq_bind, Option.bind_some]

/-- An address holds dots and digits only. -/
theorem not_mem_render {c : Char} (hdot : c ≠ '.') (hc : c.isDigit = false) (ip : Ipv4) :
    c ∉ ip.render := by
  simp [render, hdot, Decimal.not_mem_render hc]

end Ipv4

namespace Ipv6

/-! ## Groups -/

theorem exists_digits (n : Nat) :
    ∃ ds : List Nat, (∀ d ∈ ds, d < 16) ∧ Nat.toDigits 16 n = ds.map Nat.digitChar ∧
      ds.foldl (fun n d => 16 * n + d) 0 = n := by
  induction n using Nat.strongRecOn with
  | ind n ih =>
      by_cases h : n < 16
      · refine ⟨[n], by simpa using h, Nat.toDigits_of_lt_base h, by simp⟩
      · obtain ⟨ds, hlt, hdigits, hvalue⟩ := ih (n / 16) (by omega)
        refine ⟨ds ++ [n % 16], ?_, ?_, ?_⟩
        · intro d hd
          rcases List.mem_append.1 hd with hd | hd
          · exact hlt d hd
          · rw [List.mem_singleton.1 hd]
            exact Nat.mod_lt n (by decide)
        · rw [Nat.toDigits_of_base_le (by decide) (by omega), hdigits, List.map_append]
          rfl
        · rw [List.foldl_append, hvalue]
          change 16 * (n / 16) + n % 16 = n
          omega

theorem digit_facts {d : Nat} (h : d < 16) :
    hexDigit? (Nat.digitChar d) = some d ∧ Nat.digitChar d ≠ ':' ∧ Nat.digitChar d ≠ '/' := by
  have all : ∀ d < 16, hexDigit? (Nat.digitChar d) = some d ∧ Nat.digitChar d ≠ ':' ∧
      Nat.digitChar d ≠ '/' := by decide
  exact all d h

theorem groupChars_ne_nil (g : UInt16) : groupChars g ≠ [] :=
  Nat.toDigits_ne_nil

theorem mem_groupChars {g : UInt16} {c : Char} (h : c ∈ groupChars g) : c ≠ ':' ∧ c ≠ '/' := by
  obtain ⟨ds, hlt, hdigits, -⟩ := exists_digits g.toNat
  rw [groupChars, hdigits] at h
  obtain ⟨d, hd, rfl⟩ := List.mem_map.1 h
  exact (digit_facts (hlt d hd)).2

theorem group?_groupChars (g : UInt16) : group? (groupChars g) = some g := by
  obtain ⟨ds, hlt, hdigits, hvalue⟩ := exists_digits g.toNat
  have hlength : (groupChars g).length ≤ 4 := by
    rw [groupChars, Nat.length_toDigits_le_iff (by decide) (by decide)]
    exact g.toNat_lt
  have hread : (groupChars g).mapM hexDigit? = some ds := by
    rw [groupChars, hdigits]
    exact mapM_map_eq_pure fun d hd => (digit_facts (hlt d hd)).1
  have hne : ¬ ((groupChars g).isEmpty = true ∨ 4 < (groupChars g).length) := by
    rintro (h | h)
    · exact groupChars_ne_nil g (List.isEmpty_iff.1 h)
    · omega
  rw [group?, if_neg hne, hread, Option.map_some, hvalue, UInt16.ofNat_toNat]

/-! ## Groups between colons -/

theorem joined_eq_intercalate (gs : List UInt16) :
    joined gs = [':'].intercalate (gs.map groupChars) := by
  induction gs with
  | nil => rfl
  | cons g gs ih =>
      cases gs with
      | nil => simp [joined, List.intercalate]
      | cons h gs => rw [joined, ih]; simp [List.intercalate]

theorem pieces?_groupChars (ipv4 : Bool) {gs : List UInt16} (hne : gs ≠ []) :
    pieces? ipv4 (gs.map groupChars) = some gs := by
  induction gs with
  | nil => exact absurd rfl hne
  | cons g gs ih =>
      cases gs with
      | nil => simp only [List.map_cons, List.map_nil, pieces?, group?_groupChars]
      | cons h gs =>
          have htail := ih (List.cons_ne_nil h gs)
          rw [List.map_cons] at htail
          rw [List.map_cons, List.map_cons, pieces?, group?_groupChars, htail]
          · rfl
          · exact List.cons_ne_nil _ _

/-- The groups between two colons of an address read back. -/
theorem part?_joined (ipv4 : Bool) (gs : List UInt16) : part? ipv4 (joined gs) = some gs := by
  by_cases hne : gs = []
  · subst hne
    rfl
  · have hempty : ¬ (joined gs).isEmpty = true := by
      cases gs with
      | nil => exact absurd rfl hne
      | cons g gs =>
          obtain ⟨c, cs, hc⟩ := List.exists_cons_of_ne_nil (groupChars_ne_nil g)
          cases gs with
          | nil => simp [joined, hc]
          | cons h gs => simp [joined, hc]
    rw [part?, if_neg hempty, joined_eq_intercalate, splitAt_intercalate,
      pieces?_groupChars ipv4 hne]
    · intro p hp
      obtain ⟨g, -, rfl⟩ := List.mem_map.1 hp
      exact fun h => (mem_groupChars h).1 rfl
    · simpa using hne

/-! ## The gap -/

theorem splitGap_cons {c : Char} {cs : List Char} (h : ∀ rest, c = ':' → cs ≠ ':' :: rest) :
    splitGap (c :: cs) = (splitGap cs).map fun p => (c :: p.1, p.2) := by
  rw [splitGap]
  exact h

theorem splitGap_append {word : List Char} (h : ':' ∉ word) (cs : List Char) :
    splitGap (word ++ cs) = (splitGap cs).map fun p => (word ++ p.1, p.2) := by
  induction word with
  | nil => simp
  | cons c word ih =>
      rw [List.mem_cons, not_or] at h
      rw [List.cons_append, splitGap_cons fun _ hc => absurd hc.symm h.1, ih h.2, Option.map_map]
      rfl

/-- There is no gap between groups. -/
theorem splitGap_joined (gs : List UInt16) (cs : List Char) :
    splitGap (joined gs ++ cs) = (splitGap cs).map fun p => (joined gs ++ p.1, p.2) := by
  induction gs with
  | nil => simp [joined]
  | cons g gs ih =>
      have hword : ∀ g, ':' ∉ groupChars g := fun g h => (mem_groupChars h).1 rfl
      cases gs with
      | nil => exact splitGap_append (hword g) cs
      | cons h gs =>
          have hnext : ∀ rest, ':' = ':' → joined (h :: gs) ++ cs ≠ ':' :: rest := by
            obtain ⟨c, word, hc⟩ := List.exists_cons_of_ne_nil (groupChars_ne_nil h)
            have hcolon : c ≠ ':' := by
              rintro rfl
              exact hword h (hc ▸ List.mem_cons_self)
            intro rest _ heq
            cases gs with
            | nil =>
                rw [joined, hc] at heq
                exact hcolon (List.cons.inj heq).1
            | cons k gs =>
                rw [joined, hc] at heq
                exact hcolon (List.cons.inj heq).1
          rw [joined, List.append_assoc, List.cons_append, splitGap_append (hword g),
            splitGap_cons hnext, ih, Option.map_map, Option.map_map]
          congr 1
          funext p
          simp

/-! ## The run of zeros -/

theorem longestRun_le (groups : List UInt16) (n : Nat) :
    (longestRun groups n).2 ≤ zeroRun (groups.drop (longestRun groups n).1) := by
  induction n with
  | zero => exact Nat.zero_le _
  | succ n ih =>
      rw [longestRun]
      split
      · exact Nat.le_refl _
      · exact ih

theorem take_of_le_zeroRun {gs : List UInt16} {n : Nat} (h : n ≤ zeroRun gs) :
    gs.take n = List.replicate n 0 := by
  induction gs generalizing n with
  | nil =>
      rw [Nat.le_zero.1 h]
      rfl
  | cons g gs ih =>
      cases n with
      | zero => rfl
      | succ n =>
          rw [zeroRun, List.takeWhile_cons] at h
          split at h
          · next hg =>
              rw [List.take_succ_cons, ih (Nat.le_of_succ_le_succ h), of_decide_eq_true hg]
              rfl
          · exact absurd h (Nat.not_succ_le_zero n)

theorem ofGroups?_groups (ip : Ipv6) : ofGroups? ip.groups = some ip := by
  rw [ofGroups?, dif_pos ip.length_groups]

/-! ## Whole addresses -/

theorem parse?_joined (ip : Ipv6) : parse? (joined ip.groups) = some ip := by
  have hgap := splitGap_joined ip.groups []
  rw [List.append_nil] at hgap
  rw [parse?, hgap]
  change (part? true (joined ip.groups)).bind _ = _
  rw [part?_joined]
  exact ofGroups?_groups ip

theorem parse?_gap {ip : Ipv6} {front back : List UInt16} {n : Nat} (hn : 0 < n)
    (h : ip.groups = front ++ List.replicate n 0 ++ back) :
    parse? (joined front ++ ':' :: ':' :: joined back) = some ip := by
  have hlength := ip.length_groups
  rw [h, List.length_append, List.length_append, List.length_replicate] at hlength
  have hcount : 8 - front.length - back.length = n := by omega
  have hgap : splitGap (':' :: ':' :: joined back) = some ([], joined back) := rfl
  rw [parse?, splitGap_joined, hgap]
  simp only [Option.map_some, List.append_nil, part?_joined, Option.bind_eq_bind,
    Option.bind_some]
  rw [if_pos (by omega), hcount, ← h, ofGroups?_groups]

/-- An IPv4 address is too long for a group. -/
theorem group?_render (v4 : Ipv4) : group? v4.render = none := by
  have hpos : ∀ n, 0 < (Decimal.render n).length := fun n =>
    List.length_pos_iff.2 (Decimal.render_ne_nil n)
  have hlength : 4 < v4.render.length := by
    have ha := hpos v4.a.toNat
    have hb := hpos v4.b.toNat
    have hc := hpos v4.c.toNat
    have hd := hpos v4.d.toNat
    simp only [Ipv4.render, List.length_append, List.length_cons]
    omega
  rw [group?, if_pos (.inr hlength)]

theorem parse?_mapped (v4 : Ipv4) :
    parse? ("::ffff:".toList ++ v4.render) =
      ofGroups? ([0, 0, 0, 0, 0, 0xffff] ++ embedded v4) := by
  have hsplit : splitAt ':' (['f', 'f', 'f', 'f', ':'] ++ v4.render) =
      [['f', 'f', 'f', 'f'], v4.render] := by
    have hjoined : ['f', 'f', 'f', 'f', ':'] ++ v4.render =
        [':'].intercalate [['f', 'f', 'f', 'f'], v4.render] := by simp [List.intercalate]
    rw [hjoined]
    apply splitAt_intercalate _ (List.cons_ne_nil _ _)
    intro p hp
    simp only [List.mem_cons, List.not_mem_nil, or_false] at hp
    rcases hp with rfl | rfl
    · decide
    · exact Ipv4.not_mem_render (by decide) (by decide) v4
  have hback : part? true (['f', 'f', 'f', 'f', ':'] ++ v4.render) =
      some (0xffff :: embedded v4) := by
    have hgroup : group? ['f', 'f', 'f', 'f'] = some 0xffff := by decide
    rw [part?, if_neg (by simp), hsplit, pieces?, hgroup, pieces?, group?_render]
    · simp [Ipv4.parse?_render]
    · exact List.cons_ne_nil _ _
  have hgap : splitGap ("::ffff:".toList ++ v4.render) =
      some ([], ['f', 'f', 'f', 'f', ':'] ++ v4.render) := rfl
  rw [parse?, hgap]
  change (part? true _).bind _ = _
  rw [hback]
  rfl

theorem groups_of_mapped? {ip : Ipv6} {v4 : Ipv4} (h : ip.mapped? = some v4) :
    ip.groups = [0, 0, 0, 0, 0, 0xffff] ++ embedded v4 := by
  have hbytes : ∀ g : UInt16, UInt16.ofNat ((UInt8.ofNat (g.toNat / 256)).toNat * 256 +
      (UInt8.ofNat (g.toNat % 256)).toNat) = g := by
    intro g
    have hg := g.toNat_lt
    have hhigh : (UInt8.ofNat (g.toNat / 256)).toNat = g.toNat / 256 :=
      UInt8.toNat_ofNat_of_lt' (by change _ < 256; omega)
    have hlow : (UInt8.ofNat (g.toNat % 256)).toNat = g.toNat % 256 :=
      UInt8.toNat_ofNat_of_lt' (Nat.mod_lt _ (by decide))
    rw [hhigh, hlow, Nat.div_add_mod', UInt16.ofNat_toNat]
  rw [mapped?] at h
  split at h
  · next g g' hgroups =>
      cases h
      rw [hgroups, embedded, hbytes, hbytes]
      rfl
  · cases h

/-- A written address reads back. -/
theorem parse?_render (ip : Ipv6) : parse? ip.render = some ip := by
  rw [render]
  cases hmapped : ip.mapped? with
  | some v4 =>
      change parse? ("::ffff:".toList ++ v4.render) = _
      rw [parse?_mapped, ← groups_of_mapped? hmapped, ofGroups?_groups]
  | none =>
      have hrun := longestRun_le ip.groups 8
      dsimp only
      generalize (longestRun ip.groups 8).1 = start at hrun
      generalize (longestRun ip.groups 8).2 = length at hrun
      split
      · next hlong =>
          apply parse?_gap (Nat.lt_of_succ_lt hlong)
          rw [← take_of_le_zeroRun hrun, List.append_assoc, ← List.drop_drop,
            List.take_append_drop, List.take_append_drop]
      · exact parse?_joined ip

theorem slash_not_mem_joined (gs : List UInt16) : '/' ∉ joined gs := by
  have hgroup : ∀ g, '/' ∉ groupChars g := fun g h => (mem_groupChars h).2 rfl
  induction gs with
  | nil => exact List.not_mem_nil
  | cons g gs ih =>
      cases gs with
      | nil => exact hgroup g
      | cons h gs => simp [joined, hgroup g, ih]

theorem slash_not_mem_render (ip : Ipv6) : '/' ∉ ip.render := by
  rw [render]
  cases ip.mapped? with
  | some v4 => simp [Ipv4.not_mem_render (show '/' ≠ '.' by decide) (by decide) v4]
  | none =>
      dsimp only
      split
      · simp [slash_not_mem_joined]
      · exact slash_not_mem_joined _

end Ipv6

end GossipDirectory
