import GossipDirectory.Proofs.Json.DocumentValue
import GossipDirectory.Proofs.Json.NumeralRead

/-!
# Reading items and members

What is read of the items of an array or the members of an object is what is read of each, one after
the other, whoever reads a single one. So reading and skipping documents need no induction over
sequences of their own.

## Implementation notes

White space after a value is left to whoever reads on, so a reader is only said to stop somewhere in
the white space that follows.
-/

namespace GossipDirectory

/-- Partners in two lists are members of them. -/
theorem forall₂_mem {α β : Type} {R : α → β → Prop} {l : List α} {u : List β}
    (h : List.Forall₂ R l u) : List.Forall₂ (fun a b => a ∈ l ∧ b ∈ u ∧ R a b) l u := by
  induction h with
  | nil => exact .nil
  | cons hab _ ih =>
      refine .cons ⟨List.mem_cons_self, List.mem_cons_self, hab⟩ (ih.imp ?_)
      rintro a b ⟨ha, hb, hab⟩
      exact ⟨List.mem_cons_of_mem _ ha, List.mem_cons_of_mem _ hb, hab⟩

theorem forall_right_of_forall₂ {α β : Type} {R : α → β → Prop} {P : β → Prop} {l : List α}
    {u : List β} (h : List.Forall₂ R l u) (hP : ∀ a b, R a b → P b) : ∀ b ∈ u, P b := by
  induction h with
  | nil => simp
  | cons hab _ ih =>
      intro c hc
      rcases List.mem_cons.1 hc with rfl | hc
      · exact hP _ _ hab
      · exact ih c hc

namespace Json

/-- What a reader makes of a text, whatever follows it; `none` is a refusal. -/
def Reads {α : Type} (item : Reader α) (x? : Option α) (text : Bytes) : Prop :=
  ∀ ⦃rest : Bytes⦄, EndsNumber rest →
    ∃ ws, Spaces ws ∧ (item (text ++ rest)).toOption = x?.map fun x => (x, ws ++ rest)

/-- White space before the text makes no difference to the reader. -/
def IgnoresSpace {α : Type} (item : Reader α) : Prop :=
  ∀ bytes, item (skipSpace bytes) = item bytes

/-- The first byte of a text, after white space. -/
def Opens (P : UInt8 → Prop) (text : Bytes) : Prop :=
  ∃ ws b bs, Spaces ws ∧ P b ∧ text = ws ++ b :: bs

/-! ## First bytes -/

/-- A byte that can start a value. -/
def StartsValue (b : UInt8) : Prop :=
  isSpace b = false ∧ b ≠ closeBracket

instance (b : UInt8) : Decidable (StartsValue b) :=
  inferInstanceAs (Decidable (_ ∧ _))

theorem StartsNumber.startsValue {b : UInt8} (h : StartsNumber b) : StartsValue b := by
  refine ⟨?_, h.ne (by decide)⟩
  simp [isSpace, h.ne (c := 32) (by decide), h.ne (c := 9) (by decide),
    h.ne (c := 10) (by decide), h.ne (c := 13) (by decide)]

/-- The bytes that a text of a document can start with. -/
def Document.OpensWith : Document → UInt8 → Prop
  | .null, b => b = lowerN
  | .bool true, b => b = lowerT
  | .bool false, b => b = lowerF
  | .number _, b => StartsNumber b
  | .string _, b => b = quote
  | .array _, b => b = openBracket
  | .object _, b => b = openBrace

theorem Document.OpensWith.startsValue {d : Document} {b : UInt8} (h : d.OpensWith b) :
    StartsValue b := by
  cases d with
  | null => cases h; decide
  | bool v => cases v <;> cases h <;> decide
  | number n => exact StartsNumber.startsValue h
  | string units => cases h; decide
  | array xs => cases h; decide
  | object ms => cases h; decide

theorem Document.OpensWith.ne_open {d : Document} {b : UInt8} (h : d.OpensWith b)
    (hdepth : d.depth = 0) : b ≠ openBracket ∧ b ≠ openBrace := by
  cases d with
  | null => cases h; decide
  | bool v => cases v <;> cases h <;> decide
  | number n => exact ⟨StartsNumber.ne h (by decide), StartsNumber.ne h (by decide)⟩
  | string units => cases h; decide
  | array xs => cases hdepth
  | object ms => cases hdepth

theorem Text.eq_cons {d : Document} {text : Bytes} (h : Text d text) :
    ∃ b bs, d.OpensWith b ∧ text = b :: bs := by
  cases h with
  | null => exact ⟨_, _, rfl, rfl⟩
  | boolTrue => exact ⟨_, _, rfl, rfl⟩
  | boolFalse => exact ⟨_, _, rfl, rfl⟩
  | number n => exact n.bytes_eq_cons
  | string h =>
      cases h
      exact ⟨_, _, rfl, rfl⟩
  | emptyArray => exact ⟨_, _, rfl, rfl⟩
  | array => exact ⟨_, _, rfl, rfl⟩
  | emptyObject => exact ⟨_, _, rfl, rfl⟩
  | object => exact ⟨_, _, rfl, rfl⟩

theorem Padded.opens {d : Document} {text : Bytes} (h : Padded d text) :
    Opens d.OpensWith text := by
  cases h with
  | @mk d before text after hbefore h _ =>
      obtain ⟨b, bs, hb, rfl⟩ := h.eq_cons
      exact ⟨before, b, bs ++ after, hbefore, hb, rfl⟩

theorem MemberText.opens {m : Units × Document} {text : Bytes} (h : MemberText m text) :
    Opens (· = quote) text := by
  cases h with
  | @mk name d before nameText after text hbefore hname =>
      cases hname
      exact ⟨before, quote, _, hbefore, rfl, rfl⟩

theorem Opens.mono {P Q : UInt8 → Prop} {text : Bytes} (h : Opens P text) (hPQ : ∀ b, P b → Q b) :
    Opens Q text := by
  obtain ⟨ws, b, bs, hws, hb, he⟩ := h
  exact ⟨ws, b, bs, hws, hPQ b hb, he⟩

theorem Opens.ne_nil {P : UInt8 → Prop} {text : Bytes} (h : Opens P text) : text ≠ [] := by
  obtain ⟨ws, b, bs, -, -, rfl⟩ := h
  simp

/-- What follows the opening quote of a string. -/
theorem StringText.append {units : Units} {text : Bytes} (h : StringText units text)
    (rest : Bytes) : ∃ bs, UnitsText units bs ∧ text ++ rest = quote :: (bs ++ quote :: rest) := by
  cases h with
  | @mk bs h => exact ⟨bs, h, by simp⟩

theorem length_le_length_separated {pieces : List Bytes} (h : ∀ p ∈ pieces, p ≠ []) :
    pieces.length ≤ (separated pieces).length := by
  induction pieces with
  | nil => exact Nat.le_refl 0
  | cons p pieces ih =>
      have hp := List.length_pos_iff.2 (h p List.mem_cons_self)
      have htail := ih fun q hq => h q (List.mem_cons_of_mem p hq)
      cases pieces with
      | nil => simpa [separated, Nat.succ_le_iff] using hp
      | cons q pieces =>
          simp only [separated, List.length_append, List.length_cons] at htail ⊢
          omega

/-- After white space a sequence starts as its first piece does, and is no shorter than it has
pieces. -/
theorem skipSpace_separated {P : UInt8 → Prop} (hP : ∀ b, P b → isSpace b = false)
    {pieces : List Bytes} (hne : pieces ≠ []) (h : ∀ p ∈ pieces, Opens P p) (rest : Bytes) :
    ∃ b bs, P b ∧ skipSpace (separated pieces ++ rest) = b :: bs ∧
      pieces.length ≤ (b :: bs).length := by
  cases pieces with
  | nil => exact absurd rfl hne
  | cons p pieces =>
      obtain ⟨ws, b, bs, hws, hb, rfl⟩ := h p List.mem_cons_self
      have htail := length_le_length_separated fun q hq => (h q (List.mem_cons_of_mem _ hq)).ne_nil
      cases pieces with
      | nil =>
          refine ⟨b, bs ++ rest, hb, ?_, by simp⟩
          rw [separated, List.append_assoc, skipSpace_append hws]
          exact skipSpace_cons (hP b hb) _
      | cons q pieces =>
          refine ⟨b, bs ++ comma :: (separated (q :: pieces) ++ rest), hb, ?_, ?_⟩
          · simp only [separated, List.append_assoc, List.cons_append]
            rw [skipSpace_append hws]
            exact skipSpace_cons (hP b hb) _
          · simp only [List.length_cons, List.length_append] at htail ⊢
            omega

theorem length_le_of_mem_separated {pieces : List Bytes} {p : Bytes} (h : p ∈ pieces) :
    p.length ≤ (separated pieces).length := by
  induction pieces with
  | nil => cases h
  | cons q pieces ih =>
      cases pieces with
      | nil =>
          rw [List.mem_singleton.1 h]
          exact Nat.le_refl _
      | cons r pieces =>
          simp only [separated, List.length_append, List.length_cons]
          rcases List.mem_cons.1 h with rfl | h
          · omega
          · have := ih h
            omega

/-! ## Padding -/

theorem Text.padded {d : Document} {text : Bytes} (h : Text d text) : Padded d text := by
  have hpadded := Padded.mk spaces_nil h spaces_nil
  rwa [List.nil_append, List.append_nil] at hpadded

/-- A reader that ignores white space reads a padded text as it reads the text itself. -/
theorem reads_of_token {α : Type} {item : Reader α} (hitem : IgnoresSpace item) {x? : Option α}
    {before text after : Bytes} (hbefore : Spaces before) (hafter : Spaces after)
    (h : ∀ rest, EndsNumber rest → (item (text ++ rest)).toOption = x?.map (·, rest)) :
    Reads item x? (before ++ (text ++ after)) := by
  intro rest hrest
  refine ⟨after, hafter, ?_⟩
  have hskip : skipSpace (before ++ (text ++ after) ++ rest) =
      skipSpace (text ++ (after ++ rest)) := by
    rw [List.append_assoc, List.append_assoc, skipSpace_append hbefore]
  rw [← hitem, hskip, hitem, h _ (hrest.append hafter)]

theorem Reads.eq_ok {α : Type} {item : Reader α} {x : α} {text : Bytes}
    (h : Reads item (some x) text) {rest : Bytes} (hrest : EndsNumber rest) :
    ∃ ws, Spaces ws ∧ item (text ++ rest) = .ok (x, ws ++ rest) := by
  obtain ⟨ws, hws, hread⟩ := h hrest
  exact ⟨ws, hws, eq_ok_of_toOption hread⟩

theorem Reads.map {α β : Type} {item : Reader α} {x? : Option α} {text : Bytes}
    (h : Reads item x? text) (g : α → β) :
    Reads (fun bytes => item bytes >>= fun p => .ok (g p.1, p.2)) (x?.map g) text := by
  intro rest hrest
  obtain ⟨ws, hws, hread⟩ := h hrest
  refine ⟨ws, hws, ?_⟩
  rw [toOption_bind, hread]
  cases x? with
  | none => rfl
  | some x => rfl

/-! ## Items -/

section Items

variable {α : Type} {item : Reader α}

theorem items_skipSpace (hitem : IgnoresSpace item) (fuel : Nat) (bytes : Bytes) :
    items item fuel (skipSpace bytes) = items item fuel bytes := by
  cases fuel with
  | zero => rfl
  | succ fuel => rw [items, items, hitem]

theorem items_eq (fuel : Nat) (bytes : Bytes) :
    items item (fuel + 1) bytes = item bytes >>= fun p =>
      match skipSpace p.2 with
      | comma :: rest => items item fuel rest >>= fun q => .ok (p.1 :: q.1, q.2)
      | closeBracket :: rest => .ok ([p.1], rest)
      | _ => .error .malformed := by
  rfl

/-- Items whose texts are read one by one are read together, and an item that is refused makes the
array refused. -/
theorem items_texts {μ : Type} {f : μ → Option α} {xs : List μ} {texts : List Bytes}
    (hne : xs ≠ []) (h : List.Forall₂ (fun x text => Reads item (f x) text) xs texts) {fuel : Nat}
    (hfuel : texts.length ≤ fuel) (rest : Bytes) :
    (items item fuel (separated texts ++ closeBracket :: rest)).toOption =
      (xs.mapM f).map (·, rest) := by
  induction h generalizing fuel with
  | nil => exact absurd rfl hne
  | @cons x text xs texts hx htexts ih =>
      obtain ⟨fuel, rfl⟩ : ∃ k, fuel = k + 1 := ⟨fuel - 1, by simp at hfuel; omega⟩
      rw [List.mapM_cons, items_eq]
      cases htexts with
      | nil =>
          obtain ⟨ws, hws, hread⟩ := hx (endsNumber_cons (b := closeBracket) (by decide) rest)
          rw [separated, toOption_bind, hread]
          cases f x with
          | none => rfl
          | some y =>
              simp only [Option.map_some, Option.bind_some, skipSpace_append hws]
              rfl
      | @cons y text' ys texts hy htexts =>
          have htail := ih (List.cons_ne_nil _ _) (Nat.le_of_succ_le_succ hfuel)
          obtain ⟨ws, hws, hread⟩ := hx (endsNumber_cons (b := comma) (by decide)
            (separated (text' :: texts) ++ closeBracket :: rest))
          have hsplit : separated (text :: text' :: texts) ++ closeBracket :: rest =
              text ++ comma :: (separated (text' :: texts) ++ closeBracket :: rest) := by
            simp [separated]
          rw [hsplit, toOption_bind, hread]
          cases f x with
          | none => rfl
          | some z =>
              simp only [Option.map_some, Option.bind_some, skipSpace_append hws]
              change (items item fuel _ >>= _).toOption = _
              rw [toOption_bind, htail]
              cases (y :: ys).mapM f with
              | none => rfl
              | some zs => rfl

theorem arrayItems_texts (hitem : IgnoresSpace item) {μ : Type} {f : μ → Option α} {xs : List μ}
    {texts : List Bytes} (hne : xs ≠ []) (hopens : ∀ text ∈ texts, Opens StartsValue text)
    (h : List.Forall₂ (fun x text => Reads item (f x) text) xs texts) (rest : Bytes) :
    (arrayItems item (separated texts ++ closeBracket :: rest)).toOption =
      (xs.mapM f).map (·, rest) := by
  have htexts : texts ≠ [] := by
    intro he
    apply hne
    cases h with
    | nil => rfl
    | cons => cases he
  obtain ⟨b, bs, hb, hskip, hlength⟩ :=
    skipSpace_separated (fun _ hb => hb.1) htexts hopens (closeBracket :: rest)
  have hread := items_texts hne h hlength rest
  rw [← items_skipSpace hitem, hskip] at hread
  rw [arrayItems, hskip]
  split
  · next heq => exact absurd (List.cons.inj heq).1 hb.2
  · exact hread

theorem arrayItems_empty {ws : Bytes} (h : Spaces ws) (rest : Bytes) :
    arrayItems item (ws ++ closeBracket :: rest) = .ok ([], rest) := by
  rw [arrayItems, skipSpace_append h]
  rfl

end Items

/-! ## Members -/

section Members

variable {σ : Type} {name : Reader String} {step : σ → String → Reader σ}

/-- Reads a single member of an object. -/
def member (name : Reader String) (step : σ → String → Reader σ) (s : σ) : Reader σ := fun bytes =>
  match skipSpace bytes with
  | quote :: rest => do
    let (k, rest) ← name rest
    step s k rest
  | _ => .error .malformed

theorem member_ignoresSpace (s : σ) : IgnoresSpace (member name step s) := by
  intro bytes
  rw [member, member, skipSpace_skipSpace]

theorem member_malformed {bytes : Bytes} (h : ∀ rest, skipSpace bytes ≠ quote :: rest) (s : σ) :
    member name step s bytes = .error .malformed := by
  rw [member]
  split
  · next rest heq => exact absurd heq (h rest)
  · rfl

theorem members_eq (fuel : Nat) (s : σ) (bytes : Bytes) :
    members name step (fuel + 1) s bytes = member name step s bytes >>= fun p =>
      match skipSpace p.2 with
      | comma :: rest => members name step fuel p.1 rest
      | closeBrace :: rest => .ok (p.1, rest)
      | _ => .error .malformed := by
  by_cases hquote : ∃ rest, skipSpace bytes = quote :: rest
  · obtain ⟨rest, hrest⟩ := hquote
    rw [members, member, hrest]
    change (name rest >>= _) = (name rest >>= _) >>= _
    cases name rest with
    | error e => rfl
    | ok p => rfl
  · rw [not_exists] at hquote
    rw [member_malformed hquote, members]
    split
    · next rest heq => exact absurd heq (hquote rest)
    · rfl

/-- Members whose texts are read one by one are read together, and a member that is refused makes
the object refused. -/
theorem members_texts {μ : Type} {f : σ → μ → Option σ} {ms : List μ} {texts : List Bytes}
    (hne : ms ≠ [])
    (h : List.Forall₂ (fun m text => ∀ s, Reads (member name step s) (f s m) text) ms texts)
    {fuel : Nat} (hfuel : texts.length ≤ fuel) (s : σ) (rest : Bytes) :
    (members name step fuel s (separated texts ++ closeBrace :: rest)).toOption =
      (ms.foldlM f s).map (·, rest) := by
  induction h generalizing fuel s with
  | nil => exact absurd rfl hne
  | @cons m text ms texts hm htexts ih =>
      obtain ⟨fuel, rfl⟩ : ∃ k, fuel = k + 1 := ⟨fuel - 1, by simp at hfuel; omega⟩
      rw [List.foldlM_cons]
      cases htexts with
      | nil =>
          obtain ⟨ws, hws, hread⟩ := hm s (endsNumber_cons (b := closeBrace) (by decide) rest)
          rw [separated, members_eq, toOption_bind, hread]
          cases f s m with
          | none => rfl
          | some t =>
              simp only [Option.map_some, Option.bind_some, skipSpace_append hws]
              rfl
      | @cons m' text' ms texts hm' htexts =>
          have htail := ih (List.cons_ne_nil _ _) (Nat.le_of_succ_le_succ hfuel)
          obtain ⟨ws, hws, hread⟩ := hm s (endsNumber_cons (b := comma) (by decide)
            (separated (text' :: texts) ++ closeBrace :: rest))
          have hsplit : separated (text :: text' :: texts) ++ closeBrace :: rest =
              text ++ comma :: (separated (text' :: texts) ++ closeBrace :: rest) := by
            simp [separated]
          rw [hsplit, members_eq, toOption_bind, hread]
          cases f s m with
          | none => rfl
          | some t =>
              simp only [Option.map_some, Option.bind_some, skipSpace_append hws]
              exact htail t

theorem members_skipSpace (fuel : Nat) (s : σ) (bytes : Bytes) :
    members name step fuel s (skipSpace bytes) = members name step fuel s bytes := by
  cases fuel with
  | zero => rfl
  | succ fuel => rw [members_eq, members_eq, member_ignoresSpace s bytes]

theorem objectMembers_texts {μ : Type} {f : σ → μ → Option σ} {ms : List μ} {texts : List Bytes}
    (hne : ms ≠ []) (hopens : ∀ text ∈ texts, Opens (· = quote) text)
    (h : List.Forall₂ (fun m text => ∀ s, Reads (member name step s) (f s m) text) ms texts)
    (s : σ) (rest : Bytes) :
    (objectMembers name step s (separated texts ++ closeBrace :: rest)).toOption =
      (ms.foldlM f s).map (·, rest) := by
  have htexts : texts ≠ [] := by
    intro he
    apply hne
    cases h with
    | nil => rfl
    | cons => cases he
  obtain ⟨b, bs, rfl, hskip, hlength⟩ :=
    skipSpace_separated (by rintro b rfl; decide) htexts hopens (closeBrace :: rest)
  have hread := members_texts hne h hlength s rest
  rw [← members_skipSpace, hskip] at hread
  rw [objectMembers, hskip]
  exact hread

theorem objectMembers_empty {ws : Bytes} (h : Spaces ws) (s : σ) (rest : Bytes) :
    objectMembers name step s (ws ++ closeBrace :: rest) = .ok (s, rest) := by
  rw [objectMembers, skipSpace_append h]
  rfl

theorem skipColon_append {ws : Bytes} (h : Spaces ws) (rest : Bytes) :
    skipColon (ws ++ colon :: rest) = .ok rest := by
  rw [skipColon, skipSpace_append h]
  rfl

theorem reads_colon {body : Reader σ} {x? : Option σ} {ws text : Bytes} (hws : Spaces ws)
    (h : Reads body x? text) :
    Reads (fun bytes => skipColon bytes >>= body) x? (ws ++ colon :: text) := by
  intro rest hrest
  obtain ⟨after, hafter, hread⟩ := h hrest
  refine ⟨after, hafter, ?_⟩
  rw [List.append_assoc, List.cons_append]
  change (skipColon _ >>= body).toOption = _
  rw [skipColon_append hws]
  exact hread

/-- The reader makes `label` of a name, however it is spelled. -/
def ReadsNames (name : Reader String) (label : Units → Option String) : Prop :=
  ∀ ⦃units : Units⦄ ⦃bs : Bytes⦄, UnitsText units bs → ∀ rest,
    (name (bs ++ quote :: rest)).toOption = (label units).map (·, rest)

theorem reads_member {label : Units → Option String} (hname : ReadsNames name label) {k : Units}
    {d : Document} {text : Bytes} {s : σ} {f : String → Option σ} (h : MemberText (k, d) text)
    (hstep : ∀ name after docText, Spaces after → Padded d docText → docText.length < text.length →
      Reads (step s name) (f name) (after ++ colon :: docText)) :
    Reads (member name step s) ((label k).bind f) text := by
  cases h with
  | @mk k d before nameText after docText hbefore hk hafter hd =>
      intro rest hrest
      obtain ⟨bs, hbs, hquote⟩ := hk.append (after ++ colon :: docText ++ rest)
      have hmember : (member name step s (before ++ (nameText ++ (after ++ colon :: docText)) ++
          rest)).toOption = ((label k).map (·, after ++ colon :: docText ++ rest)).bind
            fun p => (step s p.1 p.2).toOption := by
        rw [member, List.append_assoc, skipSpace_append hbefore, List.append_assoc, hquote,
          skipSpace_cons (by decide)]
        change (name _ >>= _).toOption = _
        rw [toOption_bind, hname hbs]
      rw [hmember]
      cases label k with
      | none => exact ⟨[], spaces_nil, rfl⟩
      | some name =>
          obtain ⟨ws, hws, hread⟩ := hstep name after docText hafter hd (by simp; omega) hrest
          exact ⟨ws, hws, hread⟩

end Members

end Json

end GossipDirectory
