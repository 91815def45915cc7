import WorkspaceCycles.Proofs.ClauseGaps
import WorkspaceCycles.Proofs.LongerTexts

namespace WorkspaceCycles.Source

/-- Nothing but blanks, and the word `type` among them at most, in front of the word `from`, with
`n` blanks between that word, or the start of the gap, and the word `from`. -/
def IsBareGapOf (n : Nat) (gap after : List Char) : Prop :=
  ∃ word blanks blanks' more, gap = word ++ blanks ∧ after = blanks' ++ ("from".toList ++ more) ∧
    (word = [] ∨ ∃ lead, word = lead ++ "type".toList ∧ ∀ c ∈ lead, Text.isBlank c) ∧
    (∀ c ∈ blanks ++ blanks', Text.isBlank c) ∧ n = (blanks ++ blanks').length

/-- A keyword at the start of a line and the word `from`, with a bare gap between the two that ends
with `n` blanks. -/
def IsBareFromOf (n : Nat) (before after : List Char) : Prop :=
  ∃ above lead gap, ∃ keyword ∈ ["import", "export"],
    before = above ++ (lead ++ (keyword.toList ++ gap)) ∧ EndsLine above ∧
      (∀ c ∈ lead, Text.isBlank c) ∧ IsBareGapOf n gap after

theorem IsBareFromOf.from_after {n : Nat} {before after : List Char}
    (h : IsBareFromOf n before after) : "from".toList <+: Text.trimStart after := by
  obtain ⟨_, _, _, _, -, -, -, -, _, _, blanks', more, -, rfl, -, hblanks, -⟩ := h
  rw [List.forall_mem_append] at hblanks
  rw [Text.trimStart, List.dropWhile_append_of_pos hblanks.2]
  exact List.prefix_append _ _

theorem IsBareFromOf.eq_length {n : Nat} {before after : List Char}
    (h : IsBareFromOf n before after) :
    n = (before.reverse.takeWhile Text.isBlank).length +
      (after.takeWhile Text.isBlank).length := by
  obtain ⟨above, lead, gap, keyword, hk, rfl, -, -, word, blanks, blanks', more, rfl, rfl, hword,
    hblanks, rfl⟩ := h
  rw [List.forall_mem_append] at hblanks
  have hlast : ∃ start c, above ++ (lead ++ (keyword.toList ++ word)) = start ++ [c] ∧
      Text.isBlank c = false := by
    rcases hword with rfl | ⟨first, rfl, -⟩
    · simp only [List.mem_cons, List.not_mem_nil, or_false] at hk
      rcases hk with rfl | rfl
      · exact ⟨above ++ (lead ++ "impor".toList), 't', by simp, by decide⟩
      · exact ⟨above ++ (lead ++ "expor".toList), 't', by simp, by decide⟩
    · exact ⟨above ++ (lead ++ (keyword.toList ++ (first ++ "typ".toList))), 'e', by simp,
        by decide⟩
  obtain ⟨start, c, hstart, hc⟩ := hlast
  have hbefore : above ++ (lead ++ (keyword.toList ++ (word ++ blanks))) =
      start ++ [c] ++ blanks := by
    rw [← hstart]
    simp only [List.append_assoc]
  have hreverse : ∀ b ∈ blanks.reverse, Text.isBlank b := by
    simpa only [List.mem_reverse] using hblanks.1
  have hfrom : ("from".toList ++ more).takeWhile Text.isBlank = [] := rfl
  rw [hbefore, List.reverse_append, List.takeWhile_append_of_pos hreverse, List.reverse_append,
    List.reverse_singleton, List.singleton_append, List.takeWhile_cons_of_neg (by simp [hc]),
    List.append_nil, List.length_reverse, List.takeWhile_append_of_pos hblanks.2, hfrom,
    List.append_nil, List.length_append]

theorem IsBareFromOf.eq_add_of_above {n k : Nat} {before after b : List Char}
    (h : IsBareFromOf n before after) (hk : IsBareFromOf k (before ++ b) after)
    (hb : ∀ c ∈ b, Text.isBlank c) : k = n + b.length := by
  have hreverse : ∀ c ∈ b.reverse, Text.isBlank c := by
    simpa only [List.mem_reverse] using hb
  rw [h.eq_length, hk.eq_length, List.reverse_append, List.takeWhile_append_of_pos hreverse,
    List.length_append, List.length_reverse]
  omega

theorem IsBareFromOf.eq_add_of_below {n k : Nat} {before after b : List Char}
    (h : IsBareFromOf n before after) (hk : IsBareFromOf k before (b ++ after))
    (hb : ∀ c ∈ b, Text.isBlank c) : k = n + b.length := by
  rw [h.eq_length, hk.eq_length, List.takeWhile_append_of_pos hb, List.length_append]
  omega

theorem IsBareGapOf.append {n : Nat} {gap after : List Char} (h : IsBareGapOf n gap after)
    (more : List Char) : IsBareGapOf n gap (after ++ more) := by
  obtain ⟨word, blanks, blanks', rest, hgap, rfl, hrest⟩ := h
  exact ⟨word, blanks, blanks', rest ++ more, hgap, by simp only [List.append_assoc], hrest⟩

theorem typeOnly?_cons (c : Char) (s : List Char) : typeOnly? (c :: s) =
    if (if Text.isBlank c then Text.dropLead? "type".toList (Text.trimStart (c :: s))
      else none).any isGap then some true
    else if isGap (c :: s) then some false
    else none := rfl

theorem typeOnly?_insert {x b y : List Char} (hx : EndsLine x) (hne : x ≠ [])
    (hb : ∀ c ∈ b, Text.isBlank c)
    (hbare : ∀ n, IsBareGapOf n x y → 3 ≤ n ∨ n + b.length < 3) :
    typeOnly? (x ++ (b ++ y)) = typeOnly? (x ++ y) := by
  have hgap : ∀ {w z : List Char}, x = w ++ z → z ≠ [] →
      (w = [] ∨ ∃ lead, w = lead ++ "type".toList ∧ ∀ c ∈ lead, Text.isBlank c) →
        isGap (z ++ (b ++ y)) = isGap (z ++ y) := by
    intro w z hz hzne hword
    have hlast : z.getLast?.any Text.isBlank := by
      rw [(hx.of_suffix (hz ▸ List.suffix_append w z)).getLast? hzne]
      rfl
    rw [Bool.eq_iff_iff, isGap_iff, isGap_iff]
    apply isGap_insert hlast hb
    intro blanks more hy hblanks
    exact hbare _ ⟨w, z, blanks, more, hz, hy, hword, hblanks, rfl⟩
  have hbehind : (Text.dropLead? "type".toList (Text.trimStart (x ++ (b ++ y)))).any isGap =
      (Text.dropLead? "type".toList (Text.trimStart (x ++ y))).any isGap := by
    rw [Text.trimStart, Text.trimStart]
    by_cases hall : ∀ c ∈ x, Text.isBlank c
    · rw [List.dropWhile_append_of_pos hall, List.dropWhile_append_of_pos hall,
        List.dropWhile_append_of_pos hb]
    · have hsuffix := List.dropWhile_suffix Text.isBlank (l := x)
      have hn := (hx.of_suffix hsuffix).newline_mem (hall ∘ List.dropWhile_eq_nil_iff.mp)
      simp only [not_forall, Bool.not_eq_true] at hall
      obtain ⟨c, hc, hp⟩ := hall
      rw [dropWhile_append_of_mem hc hp, dropWhile_append_of_mem hc hp,
        dropLead?_append_of_mem hn (by decide), dropLead?_append_of_mem hn (by decide)]
      cases hd : Text.dropLead? "type".toList (x.dropWhile Text.isBlank) with
      | none => rfl
      | some z =>
        have hz := Text.eq_append_of_dropLead? hd
        rw [hz] at hn
        have hzne : z ≠ [] := by
          rintro rfl
          exact absurd hn (by decide)
        refine hgap (w := x.takeWhile Text.isBlank ++ "type".toList) ?_ hzne (.inr ⟨_, rfl, ?_⟩)
        · rw [List.append_assoc, ← hz, List.takeWhile_append_dropWhile]
        · exact fun c => List.mem_takeWhile_imp
  have hwhole := hgap (List.nil_append x).symm hne (.inl rfl)
  obtain ⟨c, r, rfl⟩ := List.exists_cons_of_ne_nil hne
  simp only [List.cons_append] at hbehind hwhole ⊢
  rw [typeOnly?_cons, typeOnly?_cons, hwhole]
  split
  · rw [hbehind]
  · rfl

inductive Spread (U b w : List Char) : List Char → List Char → Prop
  | above {u : List Char} (hne : u ≠ []) (hu : u <:+ U) : Spread U b w (u ++ w) (u ++ (b ++ w))
  | below {s : List Char} (hs : s.length ≤ w.length) : Spread U b w s s

def Hit.widen (below added : Nat) (hit : Hit) : Hit :=
  if hit.left ≤ below then hit else hit.lift added

theorem Hit.widen_of_le {below : Nat} {hit : Hit} (h : hit.left ≤ below) (added : Nat) :
    hit.widen below added = hit :=
  if_pos h

theorem Hit.widen_lift {hit : Hit} (h : 0 < hit.left) (below added : Nat) :
    (hit.lift below).widen below added = hit.lift (added + below) := by
  rw [widen, if_neg (by simp only [lift]; omega)]
  simp only [lift, Hit.mk.injEq, and_true]
  omega

theorem map_widen_eq_self {below : Nat} {hits : List Hit} (h : ∀ hit ∈ hits, hit.left ≤ below)
    (added : Nat) : hits.map (Hit.widen below added) = hits := by
  have heq : hits.map (Hit.widen below added) = hits.map id :=
    List.map_congr_left fun hit hm => Hit.widen_of_le (h hit hm) added
  rw [heq, List.map_id]

theorem Hit.specifier_widen (below added : Nat) (hit : Hit) :
    (hit.widen below added).specifier = hit.specifier := by
  unfold widen
  split <;> rfl

theorem Hit.left_widen_le_iff (below added : Nat) (a b : Hit) :
    (b.widen below added).left ≤ (a.widen below added).left ↔ b.left ≤ a.left := by
  unfold widen
  split <;> split <;> simp only [lift] <;> omega

structure Moved (U b w : List Char) (p p' : Hit × List Char) : Prop where
  hit : p'.1 = p.1.widen w.length b.length
  rest : Spread U b w p.2 p'.2

structure SameClause (U b w : List Char) (x x' : List Char) : Prop where
  spread : Spread U b w x x'
  typeOnly : typeOnly? (x.takeWhile isClauseChar) = typeOnly? (x'.takeWhile isClauseChar)

section Insert

variable {U b w : List Char} (hU : EndsLine U) (hblank : ∀ c ∈ b, Text.isBlank c)

theorem moved_self {p : Hit × List Char} {n : Nat} (h : p.1.left < n ∧ p.2.length < p.1.left)
    (hn : n ≤ w.length) : Moved U b w p p where
  hit := (Hit.widen_of_le (by omega) _).symm
  rest := .below (by omega)

theorem rel_bind {α β : Type} {R : α → α → Prop} {S : β → β → Prop} {o o' : Option α}
    {f g : α → Option β} (h : Option.Rel R o o') (hf : ∀ a a', R a a' → Option.Rel S (f a) (g a')) :
    Option.Rel S (o.bind f) (o'.bind g) := by
  cases h with
  | some h => exact hf _ _ h
  | none => exact .none

omit hblank in
theorem Spread.dropWhile {p : Char → Bool} (hp : ∀ c ∈ b, p c) {s s' : List Char}
    (h : Spread U b w s s') : Spread U b w (s.dropWhile p) (s'.dropWhile p) := by
  cases h with
  | @above u hne hu =>
    rw [List.dropWhile_append, List.dropWhile_append]
    split
    · rw [List.dropWhile_append_of_pos hp]
      exact .below (List.dropWhile_sublist _).length_le
    · rename_i he
      refine .above ?_ ((List.dropWhile_suffix _).trans hu)
      intro hnil
      exact he (List.isEmpty_iff.mpr hnil)
  | below hs => exact .below (Nat.le_trans (List.dropWhile_sublist _).length_le hs)

include hU

theorem Spread.dropLead? {lead s s' : List Char} (hl : '\n' ∉ lead) (h : Spread U b w s s') :
    Option.Rel (Spread U b w) (Text.dropLead? lead s) (Text.dropLead? lead s') := by
  cases h with
  | @above u hne hu =>
    have hn := (hU.of_suffix hu).newline_mem hne
    rw [dropLead?_append_of_mem hn hl, dropLead?_append_of_mem hn hl]
    cases hd : Text.dropLead? lead u with
    | none => exact .none
    | some r =>
      have hr := Text.eq_append_of_dropLead? hd
      rw [hr] at hn hu
      refine .some (.above ?_ ((List.suffix_append _ _).trans hu))
      rintro rfl
      rw [List.append_nil] at hn
      exact hl hn
  | below hs =>
    cases hd : Text.dropLead? lead s with
    | none => exact .none
    | some r => exact .some (.below (Nat.le_trans (length_dropLead?_le hd) hs))

theorem Spread.quotedSpecifier? {s s' : List Char} (h : Spread U b w s s') :
    Option.Rel (Moved U b w) (quotedSpecifier? s) (quotedSpecifier? s') := by
  cases h with
  | @above u hne hu =>
    have hn := (hU.of_suffix hu).newline_mem hne
    rw [quotedSpecifier?_append hn, quotedSpecifier?_append hn]
    cases hq : Source.quotedSpecifier? u with
    | none => exact .none
    | some p =>
      obtain ⟨hit, r⟩ := p
      obtain ⟨opening, closing, hs, -, -, hc, -⟩ := exists_of_quotedSpecifier? hq
      have hleft := left_lt_of_quotedSpecifier? hq
      have hsuffix : closing :: r <:+ U := by
        refine List.IsSuffix.trans ?_ hu
        rw [hs, ← List.cons_append]
        exact List.suffix_append _ _
      refine .some ⟨?_, .above ?_ ((List.suffix_cons _ _).trans hsuffix)⟩
      · have hpos : 0 < hit.left := by omega
        rw [Hit.widen_lift hpos, List.length_append]
      · rintro rfl
        obtain rfl := hU.of_suffix hsuffix closing rfl
        exact absurd hc (by decide)
  | below hs =>
    cases hq : Source.quotedSpecifier? s with
    | none => exact .none
    | some p => exact .some (moved_self (left_lt_of_quotedSpecifier? hq) hs)

include hblank

theorem Spread.argument? {s s' : List Char} (h : Spread U b w s s') :
    Option.Rel (Moved U b w) (argument? s) (argument? s') := by
  refine rel_bind ((h.dropWhile hblank).quotedSpecifier? hU) fun p p' hp => ?_
  refine rel_bind ((hp.rest.dropWhile hblank).dropLead? hU (by decide)) fun r r' hr => ?_
  exact .some ⟨hp.hit, hr⟩

theorem Spread.call? {name : List Char} (hname : '\n' ∉ name ++ ['(']) (inWord : Bool)
    {s s' : List Char} (h : Spread U b w s s') :
    Option.Rel (Moved U b w) (call? name inWord s) (call? name inWord s') := by
  unfold Source.call?
  split
  · exact .none
  · exact rel_bind (h.dropLead? hU hname) fun r r' hr => hr.argument? hU hblank

variable (hb : EndsLine b)

include hb

omit hU in
theorem calls_blank_append {name : List Char} (hname : '\n' ∉ name ++ ['(']) (s : List Char) :
    calls name false (b ++ s) = calls name false s := by
  rcases List.eq_nil_or_concat b with rfl | ⟨t, c, rfl⟩
  · rfl
  · obtain rfl := hb c (by simp)
    have hbracket : '(' ∉ t := by
      intro hm
      exact absurd (hblank '(' (by simp [hm])) (by decide)
    rw [List.concat_eq_append, List.append_assoc, List.singleton_append,
      calls_append_of_not_infix hname (not_infix_of_not_mem name hbracket)]
    rfl

theorem Spread.calls {name : List Char} (hname : '\n' ∉ name ++ ['(']) {s s' : List Char}
    (h : Spread U b w s s') (inWord : Bool) :
    calls name inWord s' = (calls name inWord s).map (Hit.widen w.length b.length) := by
  induction hn : s.length using Nat.strongRecOn generalizing s s' inWord with
  | ind n ih =>
    subst hn
    have hself : ∀ {t : List Char}, t.length ≤ w.length → ∀ inWord,
        (Source.calls name inWord t).map (Hit.widen w.length b.length) =
          Source.calls name inWord t := by
      intro t ht inWord
      refine map_widen_eq_self (fun hit hm => ?_) _
      exact Nat.le_of_lt (Nat.lt_of_lt_of_le (left_lt_of_mem_calls hm) ht)
    have hcall := h.call? hU hblank hname inWord
    cases h with
    | below hs => exact (hself hs inWord).symm
    | @above u hne hu =>
      obtain ⟨c, r, rfl⟩ := List.exists_cons_of_ne_nil hne
      rw [List.cons_append, List.cons_append] at hcall ⊢
      generalize ho : Source.call? name inWord (c :: (r ++ w)) = o at hcall
      generalize ho' : Source.call? name inWord (c :: (r ++ (b ++ w))) = o' at hcall
      cases hcall with
      | @some p p' hp =>
        rw [calls_of_call?_eq_some ho, calls_of_call?_eq_some ho', List.map_cons, hp.hit]
        have hleft := left_lt_of_call? ho
        rw [ih _ (Nat.lt_trans hleft.2 hleft.1) hp.rest false rfl]
      | none =>
        rw [calls_of_call?_eq_none ho, calls_of_call?_eq_none ho']
        by_cases hr : r = []
        · subst hr
          obtain rfl := hU.of_suffix hu c rfl
          have hword : Text.isWord '\n' = false := by decide
          rw [List.nil_append, List.nil_append, hword, calls_blank_append hblank hb hname,
            hself (Nat.le_refl _)]
        · exact ih _ (by simp) (.above hr ((List.suffix_cons c r).trans hu)) _ rfl

theorem calls_insert_blank {name : List Char} (hname : '\n' ∉ name ++ ['(']) :
    calls name false (U ++ (b ++ w)) =
      (calls name false (U ++ w)).map (Hit.widen w.length b.length) := by
  by_cases hne : U = []
  · rw [hne, List.nil_append, List.nil_append, calls_blank_append hblank hb hname]
    exact (map_widen_eq_self (fun hit hm => Nat.le_of_lt (left_lt_of_mem_calls hm)) _).symm
  · exact Spread.calls hU hblank hb hname (.above hne List.suffix_rfl) false

section Statements

omit hb in
theorem rel_afterKeyword? {u : List Char} (hne : u ≠ []) (hu : u <:+ U)
    (hbare : ∀ keyword ∈ ["import", "export"], ∀ x, u = keyword.toList ++ x →
      ∀ n, IsBareGapOf n x w → 3 ≤ n ∨ n + b.length < 3) :
    Option.Rel (SameClause U b w) (afterKeyword? (u ++ w)) (afterKeyword? (u ++ (b ++ w))) := by
  have hn := (hU.of_suffix hu).newline_mem hne
  rw [afterKeyword?_append_of_mem hn, afterKeyword?_append_of_mem hn]
  cases hk : afterKeyword? u with
  | none => exact .none
  | some x =>
    obtain ⟨keyword, hkeyword, hx⟩ := exists_of_afterKeyword? hk
    have hsuffix : x <:+ U := (hx ▸ List.suffix_append _ _).trans hu
    have hxne : x ≠ [] := by
      rintro rfl
      rw [hx] at hn
      simp only [List.mem_cons, List.not_mem_nil, or_false] at hkeyword
      rcases hkeyword with rfl | rfl <;> exact absurd hn (by decide)
    refine .some ⟨.above hxne hsuffix, ?_⟩
    by_cases hclause : ∀ c ∈ x, isClauseChar c
    · have hb : ∀ c ∈ b, isClauseChar c := fun c hc => isClauseChar_of_isBlank (hblank c hc)
      rw [List.takeWhile_append_of_pos hclause, List.takeWhile_append_of_pos hclause,
        List.takeWhile_append_of_pos hb]
      refine (typeOnly?_insert (hU.of_suffix hsuffix) hxne hblank fun n hgap => ?_).symm
      have hw := hgap.append (w.dropWhile isClauseChar)
      rw [List.takeWhile_append_dropWhile] at hw
      exact hbare keyword hkeyword x hx n hw
    · simp only [not_forall, Bool.not_eq_true] at hclause
      obtain ⟨c, hc, hp⟩ := hclause
      rw [takeWhile_append_of_mem hc hp, takeWhile_append_of_mem hc hp]

variable (hcut : ∀ n, IsBareFromOf n U w → 3 ≤ n ∨ n + b.length < 3)

include hcut

omit hb in
theorem rel_statement? {v u : List Char} (hvu : v ++ u = U) (hv : EndsLine v) :
    Option.Rel (fun p p' => p'.1.1 = p.1.1 ∧ Moved U b w (p.1.2, p.2) (p'.1.2, p'.2))
      (statement? (u ++ w)) (statement? (u ++ (b ++ w))) := by
  have hkeyword : Option.Rel (SameClause U b w) (afterKeyword? (Text.trimStart (u ++ w)))
      (afterKeyword? (Text.trimStart (u ++ (b ++ w)))) := by
    rw [Text.trimStart, Text.trimStart]
    by_cases hall : ∀ c ∈ u, Text.isBlank c
    · rw [List.dropWhile_append_of_pos hall, List.dropWhile_append_of_pos hall,
        List.dropWhile_append_of_pos hblank]
      cases hk : afterKeyword? (w.dropWhile Text.isBlank) with
      | none => exact .none
      | some x =>
        have hle := (List.dropWhile_sublist (l := w) Text.isBlank).length_le
        exact .some ⟨.below (Nat.le_trans (length_afterKeyword?_le hk) hle), rfl⟩
    · have hsuffix := List.dropWhile_suffix Text.isBlank (l := u)
      have hne : u.dropWhile Text.isBlank ≠ [] := hall ∘ List.dropWhile_eq_nil_iff.mp
      simp only [not_forall, Bool.not_eq_true] at hall
      obtain ⟨c, hc, hp⟩ := hall
      rw [dropWhile_append_of_mem hc hp, dropWhile_append_of_mem hc hp]
      refine rel_afterKeyword? hU hblank hne (hsuffix.trans ⟨v, hvu⟩) ?_
      intro keyword hk x hx n hgap
      refine hcut n ⟨v, u.takeWhile Text.isBlank, x, keyword, hk, ?_, hv, ?_, hgap⟩
      · rw [← hx, List.takeWhile_append_dropWhile, hvu]
      · exact fun c => List.mem_takeWhile_imp
  have hb : ∀ c ∈ b, isClauseChar c := fun c hc => isClauseChar_of_isBlank (hblank c hc)
  refine rel_bind hkeyword fun x x' hx => ?_
  rw [hx.typeOnly]
  cases typeOnly? (x'.takeWhile isClauseChar) with
  | none => exact .none
  | some t =>
    simp only [bind, Option.bind_some]
    refine rel_bind ((hx.spread.dropWhile hb).quotedSpecifier? hU) fun p p' hp => ?_
    exact .some ⟨rfl, hp.hit, hp.rest⟩

omit hU hcut in
theorem statements_blank_append (s : List Char) : statements (b ++ s) = statements s := by
  induction hn : b.length using Nat.strongRecOn generalizing b with
  | ind n ih =>
    subst hn
    by_cases hne : b = []
    · rw [hne, List.nil_append]
    · have hstart : statement? (b ++ s) = statement? s := by
        rw [statement?, Text.trimStart, List.dropWhile_append_of_pos hblank]
        rfl
      cases hs : statement? s with
      | some p => rw [statements_of_some (hstart.trans hs), statements_of_some hs]
      | none =>
        obtain ⟨line, more, rfl, hline, hmore⟩ := hb.exists_line hne
        rw [statements_of_none (hstart.trans hs), List.append_assoc, List.cons_append,
          splitLine_append hline]
        refine ih more.length ?_ (fun c hc => hblank c (by simp [hc])) (hb.of_suffix hmore) rfl
        simp only [List.length_append, List.length_cons]
        omega

theorem statements_insert_blank {v u : List Char} (hvu : v ++ u = U) (hv : EndsLine v) :
    statements (u ++ (b ++ w)) =
      (statements (u ++ w)).map fun found => (found.1, found.2.widen w.length b.length) := by
  have hself : ∀ {found : List (Bool × Hit)}, (∀ f ∈ found, f.2.left ≤ w.length) →
      found.map (fun f => (f.1, f.2.widen w.length b.length)) = found := by
    intro found hleft
    have heq : found.map (fun f => (f.1, f.2.widen w.length b.length)) = found.map id :=
      List.map_congr_left fun f hf => Prod.ext rfl (Hit.widen_of_le (hleft f hf) _)
    rw [heq, List.map_id]
  induction hn : u.length using Nat.strongRecOn generalizing v u with
  | ind n ih =>
    subst hn
    -- the search goes on at the start of a line, which may be the first one below the blank lines
    have hline : ∀ {r r' : List Char}, r.length ≤ (u ++ w).length → Spread U b w r r' →
        (splitLine r').2.elim [] statements = ((splitLine r).2.elim [] statements).map
          fun f => (f.1, f.2.widen w.length b.length) := by
      intro r r' hr hspread
      cases hspread with
      | below hs =>
        refine (hself fun f hf => ?_).symm
        exact Nat.le_of_lt (Nat.lt_of_lt_of_le (left_lt_of_mem_statements_below hf) hs)
      | @above x hne hx =>
        obtain ⟨line, more, rfl, hnl, -⟩ := (hU.of_suffix hx).exists_line hne
        obtain ⟨before, hbefore⟩ := hx
        rw [List.append_assoc, List.append_assoc, List.cons_append, List.cons_append,
          splitLine_append hnl, splitLine_append hnl]
        refine ih more.length ?_ (v := before ++ (line ++ ['\n'])) ?_ ?_ rfl
        · simp only [List.length_append, List.length_cons] at hr
          omega
        · rw [← hbefore]
          simp only [List.append_assoc, List.cons_append, List.nil_append]
        · simp [EndsLine, ← List.append_assoc]
    by_cases hne : u = []
    · subst hne
      rw [List.nil_append, List.nil_append, statements_blank_append hblank hb]
      exact (hself fun f hf => Nat.le_of_lt (left_lt_of_mem_statements hf)).symm
    · have hstatement := rel_statement? hU hblank hcut hvu hv
      generalize ho : statement? (u ++ w) = o at hstatement
      generalize ho' : statement? (u ++ (b ++ w)) = o' at hstatement
      cases hstatement with
      | @some p p' hp =>
        have hleft := left_lt_of_statement? ho
        have hrest : p.2.length ≤ (u ++ w).length := by omega
        rw [statements_of_some ho, statements_of_some ho', List.map_cons, hline hrest hp.2.rest]
        exact congrArg (· :: _) (Prod.ext hp.1 hp.2.hit)
      | none =>
        rw [statements_of_none ho, statements_of_none ho']
        exact hline (Nat.le_refl _) (.above hne ⟨v, hvu⟩)

end Statements

end Insert

theorem listedIn_insert_blank {u b w : List Char} (hu : EndsLine u) (hb : EndsLine b)
    (hblank : ∀ c ∈ b, Text.isBlank c)
    (hcut : ∀ n, IsBareFromOf n u w → 3 ≤ n ∨ n + b.length < 3)
    (skipTypeOnly skipDynamicImports : Bool) :
    listedIn (u ++ (b ++ w)) skipTypeOnly skipDynamicImports =
      listedIn (u ++ w) skipTypeOnly skipDynamicImports := by
  have hrequire : '\n' ∉ "require".toList ++ ['('] := by decide
  have himport : '\n' ∉ "import".toList ++ ['('] := by decide
  have hempty : EndsLine [] := by simp [EndsLine]
  have hstatic : staticHits (u ++ (b ++ w)) skipTypeOnly =
      (staticHits (u ++ w) skipTypeOnly).map (Hit.widen w.length b.length) := by
    rw [staticHits, statements_insert_blank hu hblank hb hcut (List.nil_append u) hempty,
      listed_map]
    rfl
  have hcalls : callHits (u ++ (b ++ w)) skipDynamicImports =
      (callHits (u ++ w) skipDynamicImports).map (Hit.widen w.length b.length) := by
    rw [callHits, callHits, calls_insert_blank hu hblank hb hrequire,
      calls_insert_blank hu hblank hb himport, List.map_append]
    cases skipDynamicImports <;> rfl
  rw [listedIn, listedIn, hstatic, hcalls, ← List.map_append]
  apply inOrder_map
  · exact fun hit _ => hit.specifier_widen _ _
  · exact fun a _ b _ => Hit.left_widen_le_iff _ _ a b

structure IsBlankLines (b : List Char) : Prop where
  endsLine : EndsLine b
  blank : ∀ c ∈ b, Text.isBlank c

theorem isBlankLines_nil : IsBlankLines [] where
  endsLine := by simp [EndsLine]
  blank := by simp

theorem isBlankLines_newline : IsBlankLines ['\n'] where
  endsLine := fun _ hc => (Option.some.inj hc).symm
  blank := List.all_eq_true.mp (by decide)

/-- Two texts that differ by blank lines alone, one with three blanks or more between a keyword, or
the word `type`, and the word `from` below those lines, the other with fewer. -/
def PartsFrom (s s' below : List Char) : Prop :=
  ∃ u b b' n, s = u ++ (b ++ below) ∧ s' = u ++ (b' ++ below) ∧ EndsLine u ∧ IsBlankLines b ∧
    IsBlankLines b' ∧ IsBareFromOf n u below ∧ ¬ (3 ≤ n + b.length ↔ 3 ≤ n + b'.length)

theorem listedIn_blank_lines {u b b' w : List Char} (hu : EndsLine u) (hb : IsBlankLines b)
    (hb' : IsBlankLines b') (hcut : ¬ PartsFrom (u ++ (b ++ w)) (u ++ (b' ++ w)) w)
    (skipTypeOnly skipDynamicImports : Bool) :
    listedIn (u ++ (b ++ w)) skipTypeOnly skipDynamicImports =
      listedIn (u ++ (b' ++ w)) skipTypeOnly skipDynamicImports := by
  have hcount : ∀ n, IsBareFromOf n u w → (3 ≤ n + b.length ↔ 3 ≤ n + b'.length) := by
    intro n hn
    by_contra hne
    exact hcut ⟨u, b, b', n, rfl, rfl, hu, hb, hb', hn, hne⟩
  by_cases hthree : ∃ n, IsBareFromOf n u w ∧ 3 ≤ n + b.length
  · -- there are three blanks in either text, so there are when both sorts of lines stand there
    obtain ⟨n, hn, hle⟩ := hthree
    have hle' := (hcount n hn).mp hle
    have habove := listedIn_insert_blank (w := w) (hu.append hb.endsLine) hb'.endsLine hb'.blank
      (fun k hk => .inl ?_) skipTypeOnly skipDynamicImports
    have hbelow := listedIn_insert_blank (w := b' ++ w) hu hb.endsLine hb.blank
      (fun k hk => .inl ?_) skipTypeOnly skipDynamicImports
    · rw [List.append_assoc, List.append_assoc] at habove
      exact habove.symm.trans hbelow
    · rwa [hn.eq_add_of_below hk hb'.blank]
    · rwa [hn.eq_add_of_above hk hb.blank]
  · have hfew : ∀ n, IsBareFromOf n u w → n + b.length < 3 := by
      intro n hn
      by_contra hle
      exact hthree ⟨n, hn, by omega⟩
    have hinsert := listedIn_insert_blank hu hb.endsLine hb.blank
      (fun n hn => .inr (hfew n hn)) skipTypeOnly skipDynamicImports
    have hinsert' := listedIn_insert_blank (w := w) hu hb'.endsLine hb'.blank
      (fun n hn => .inr ?_) skipTypeOnly skipDynamicImports
    · exact hinsert.trans hinsert'.symm
    · have hlt := hfew n hn
      have := hcount n hn
      omega

theorem listedIn_blank_append {b : List Char} (hb : EndsLine b) (hblank : ∀ c ∈ b, Text.isBlank c)
    (s : List Char) (skipTypeOnly skipDynamicImports : Bool) :
    listedIn (b ++ s) skipTypeOnly skipDynamicImports =
      listedIn s skipTypeOnly skipDynamicImports := by
  rw [listedIn, listedIn, staticHits, statements_blank_append hblank hb, callHits,
    calls_blank_append hblank hb (by decide), calls_blank_append hblank hb (by decide)]
  rfl

end WorkspaceCycles.Source
