import Mathlib.Data.List.Infix
import Mathlib.Data.List.TakeWhile
import WorkspaceCycles.Source.Imports

namespace WorkspaceCycles.Source

def listed (skipTypeOnly : Bool) (found : List (Bool × Hit)) : List Hit :=
  (found.filter fun f => !(f.1 && skipTypeOnly)).map (·.2)

def staticHits (s : List Char) (skipTypeOnly : Bool) : List Hit :=
  listed skipTypeOnly (statements s)

theorem listed_cons (skipTypeOnly typeOnly : Bool) (hit : Hit) (found : List (Bool × Hit)) :
    listed skipTypeOnly ((typeOnly, hit) :: found) =
      if typeOnly && skipTypeOnly then listed skipTypeOnly found
      else hit :: listed skipTypeOnly found := by
  simp only [listed, List.filter_cons]
  cases typeOnly && skipTypeOnly <;> rfl

theorem listed_append (skipTypeOnly : Bool) (found more : List (Bool × Hit)) :
    listed skipTypeOnly (found ++ more) =
      listed skipTypeOnly found ++ listed skipTypeOnly more := by
  simp only [listed, List.filter_append, List.map_append]

theorem listed_map (skipTypeOnly : Bool) (f : Hit → Hit) (found : List (Bool × Hit)) :
    listed skipTypeOnly (found.map fun p => (p.1, f p.2)) = (listed skipTypeOnly found).map f := by
  simp only [listed, List.filter_map, List.map_map]
  rfl

theorem mem_listed_cons_iff {skipTypeOnly typeOnly : Bool} {hit : Hit} {found : List (Bool × Hit)}
    (h : hit ∉ listed skipTypeOnly found) :
    hit ∈ listed skipTypeOnly ((typeOnly, hit) :: found) ↔ (typeOnly && skipTypeOnly) = false := by
  rw [listed_cons]
  cases typeOnly && skipTypeOnly <;> simp [h]

def callHits (s : List Char) (skipDynamicImports : Bool) : List Hit :=
  calls "require".toList false s ++
    if skipDynamicImports then [] else calls "import".toList false s

def inOrder (hits : List Hit) : List String :=
  (hits.mergeSort fun a b => b.left ≤ a.left).map fun hit => String.ofList hit.specifier

def listedIn (s : List Char) (skipTypeOnly skipDynamicImports : Bool) : List String :=
  inOrder (staticHits s skipTypeOnly ++ callHits s skipDynamicImports)

theorem specifiers_eq (source : List Char) (skipTypeOnly skipDynamicImports : Bool) :
    specifiers source skipTypeOnly skipDynamicImports =
      listedIn (dropComments source) skipTypeOnly skipDynamicImports := by
  rw [listedIn, callHits, ← List.append_assoc]
  rfl

theorem length_inOrder (hits : List Hit) : (inOrder hits).length = hits.length := by
  rw [inOrder, List.length_map, List.length_mergeSort]

theorem inOrder_append_eq_iff (hit : Hit) (hits more : List Hit) (p q : Bool) :
    inOrder ((if p then hits else hit :: hits) ++ more) =
      inOrder ((if q then hits else hit :: hits) ++ more) ↔ p = q := by
  constructor
  · intro h
    have hlength := congrArg List.length h
    simp only [length_inOrder, List.length_append] at hlength
    cases p <;> cases q <;> simp_all
  · rintro rfl
    rfl

theorem inOrder_map {f : Hit → Hit} {hits : List Hit}
    (hspecifier : ∀ hit ∈ hits, (f hit).specifier = hit.specifier)
    (hleft : ∀ a ∈ hits, ∀ b ∈ hits, (f b).left ≤ (f a).left ↔ b.left ≤ a.left) :
    inOrder (hits.map f) = inOrder hits := by
  have hsort : (hits.map f).mergeSort (fun a b => b.left ≤ a.left) =
      (hits.mergeSort fun a b => b.left ≤ a.left).map f := by
    rw [List.map_mergeSort]
    intro a ha b hb
    rw [decide_eq_decide]
    exact (hleft a ha b hb).symm
  rw [inOrder, hsort, List.map_map, inOrder]
  apply List.map_congr_left
  intro hit hm
  exact congrArg String.ofList (hspecifier hit ((List.mergeSort_perm hits _).mem_iff.mp hm))

section Sorting

section Head

variable {α : Type} {p : α → Bool} {s t : List α} (h : ∀ c ∈ t.head?, p c = false)

include h

theorem takeWhile_append_of_head : (s ++ t).takeWhile p = s.takeWhile p := by
  rw [List.takeWhile_append]
  split
  · rename_i hs
    rw [(List.takeWhile_prefix p).eq_of_length hs]
    cases t with
    | nil => rw [List.takeWhile_nil, List.append_nil]
    | cons c t => rw [List.takeWhile_cons_of_neg (by simp [h c rfl]), List.append_nil]
  · rfl

theorem dropWhile_append_of_head : (s ++ t).dropWhile p = s.dropWhile p ++ t := by
  rw [List.dropWhile_append]
  split
  · rename_i hs
    rw [List.isEmpty_iff.mp hs, List.nil_append]
    cases t with
    | nil => rfl
    | cons c t => rw [List.dropWhile_cons_of_neg (by simp [h c rfl])]
  · rfl

end Head

def sorted (hits : List Hit) : List Hit :=
  hits.mergeSort fun a b => b.left ≤ a.left

theorem mem_sorted {hit : Hit} {hits : List Hit} : hit ∈ sorted hits ↔ hit ∈ hits :=
  (List.mergeSort_perm hits _).mem_iff

theorem sorted_cons (hit : Hit) (hits : List Hit) : sorted (hit :: hits) =
    (sorted hits).takeWhile (hit.left < ·.left) ++
      hit :: (sorted hits).dropWhile (hit.left < ·.left) := by
  have htrans : ∀ a b c : Hit, decide (b.left ≤ a.left) → decide (c.left ≤ b.left) →
      decide (c.left ≤ a.left) := by
    intro a b c hab hbc
    simp only [decide_eq_true_eq] at hab hbc ⊢
    omega
  have htotal : ∀ a b : Hit, (decide (b.left ≤ a.left) || decide (a.left ≤ b.left)) := by
    intro a b
    simp only [Bool.or_eq_true, decide_eq_true_eq]
    omega
  obtain ⟨before, behind, hcons, hmore, hbefore⟩ := List.mergeSort_cons htrans htotal hit hits
  have hlt : ∀ a ∈ before, decide (hit.left < a.left) := by
    intro a ha
    simpa using hbefore a ha
  have hle : ∀ a ∈ behind.head?, decide (hit.left < a.left) = false := by
    intro a ha
    have hpairwise := List.pairwise_mergeSort htrans htotal (hit :: hits)
    rw [hcons] at hpairwise
    have hbehind := (List.pairwise_cons.mp (List.pairwise_append.mp hpairwise).2.1).1
    simpa using hbehind a (List.mem_of_head? ha)
  rw [sorted, sorted, hcons, hmore, takeWhile_append_of_head hle, dropWhile_append_of_head hle,
    List.takeWhile_eq_self_iff.mpr hlt, List.dropWhile_eq_nil_iff.mpr hlt, List.nil_append]

theorem sorted_eq_append (n : Nat) (hits : List Hit) :
    sorted hits = sorted (hits.filter (n ≤ ·.left)) ++ sorted (hits.filter (·.left < n)) := by
  induction hits with
  | nil => simp [sorted]
  | cons hit hits ih =>
    rw [sorted_cons, ih]
    have hfar : ∀ a ∈ sorted (hits.filter (n ≤ ·.left)), n ≤ a.left := by
      intro a ha
      simpa using (List.mem_filter.mp (mem_sorted.mp ha)).2
    have hnear : ∀ a ∈ sorted (hits.filter (·.left < n)), a.left < n := by
      intro a ha
      simpa using (List.mem_filter.mp (mem_sorted.mp ha)).2
    by_cases hn : n ≤ hit.left
    · have hstop : ∀ a ∈ (sorted (hits.filter (·.left < n))).head?,
          decide (hit.left < a.left) = false := by
        intro a ha
        have hlt := hnear a (List.mem_of_head? ha)
        exact decide_eq_false (by omega)
      rw [takeWhile_append_of_head hstop, dropWhile_append_of_head hstop,
        List.filter_cons_of_pos (by simpa using hn), List.filter_cons_of_neg (by simpa using hn),
        sorted_cons, List.append_assoc, List.cons_append]
    · have hgo : ∀ a ∈ sorted (hits.filter (n ≤ ·.left)), decide (hit.left < a.left) := by
        intro a ha
        have hle := hfar a ha
        exact decide_eq_true (by omega)
      rw [List.takeWhile_append_of_pos hgo, List.dropWhile_append_of_pos hgo,
        List.filter_cons_of_neg (by simpa using hn), List.filter_cons_of_pos (by simpa using hn),
        sorted_cons, List.append_assoc]

theorem filter_of_le_left {n : Nat} {hits : List Hit} (h : ∀ hit ∈ hits, n ≤ hit.left) :
    hits.filter (n ≤ ·.left) = hits ∧ hits.filter (·.left < n) = [] := by
  rw [List.filter_eq_self, List.filter_eq_nil_iff]
  refine ⟨fun hit hm => decide_eq_true (h hit hm), fun hit hm => ?_⟩
  rw [decide_eq_true_eq]
  exact Nat.not_lt.mpr (h hit hm)

theorem filter_of_left_lt {n : Nat} {hits : List Hit} (h : ∀ hit ∈ hits, hit.left < n) :
    hits.filter (n ≤ ·.left) = [] ∧ hits.filter (·.left < n) = hits := by
  rw [List.filter_eq_self, List.filter_eq_nil_iff]
  refine ⟨fun hit hm => ?_, fun hit hm => decide_eq_true (h hit hm)⟩
  rw [decide_eq_true_eq]
  exact Nat.not_le.mpr (h hit hm)

theorem inOrder_eq_append {n : Nat} {far near : List Hit} (hits : List Hit)
    (hfar : hits.filter (n ≤ ·.left) = far) (hnear : hits.filter (·.left < n) = near) :
    inOrder hits = inOrder far ++ inOrder near := by
  have hsorted := sorted_eq_append n hits
  rw [hfar, hnear] at hsorted
  rw [inOrder, inOrder, inOrder, ← List.map_append]
  exact congrArg (List.map fun hit => String.ofList hit.specifier) hsorted

end Sorting

theorem exists_of_quotedSpecifier? {s rest : List Char} {hit : Hit}
    (h : quotedSpecifier? s = some (hit, rest)) :
    ∃ opening closing, s = opening :: (hit.specifier ++ closing :: rest) ∧
      hit.left = (hit.specifier ++ closing :: rest).length ∧ isQuote opening ∧ isQuote closing ∧
      ∀ c ∈ hit.specifier, isSpecifierChar c := by
  unfold quotedSpecifier? at h
  split at h
  · rename_i opening r
    simp only at h
    split at h
    · rename_i closing more hd
      split at h
      · rename_i hq
        simp only [Option.some.injEq, Prod.mk.injEq] at h
        obtain ⟨rfl, rfl⟩ := h
        simp only [Bool.and_eq_true] at hq
        have hr : r = r.takeWhile isSpecifierChar ++ closing :: more := by
          rw [← hd, List.takeWhile_append_dropWhile]
        exact ⟨opening, closing, congrArg _ hr, congrArg _ hr, hq.1.1, hq.1.2,
          List.all_eq_true.mp List.all_takeWhile⟩
      · cases h
    · cases h
  · cases h

theorem left_lt_of_quotedSpecifier? {s rest : List Char} {hit : Hit}
    (h : quotedSpecifier? s = some (hit, rest)) : hit.left < s.length ∧ rest.length < hit.left := by
  obtain ⟨opening, closing, rfl, hl, -⟩ := exists_of_quotedSpecifier? h
  simp only [hl, List.length_cons, List.length_append]
  omega

theorem suffix_of_quotedSpecifier? {s rest : List Char} {hit : Hit}
    (h : quotedSpecifier? s = some (hit, rest)) : rest <:+ s := by
  obtain ⟨opening, closing, rfl, -⟩ := exists_of_quotedSpecifier? h
  exact ⟨opening :: (hit.specifier ++ [closing]), by simp⟩

theorem suffix_of_dropLead? {lead s rest : List Char} (h : Text.dropLead? lead s = some rest) :
    rest <:+ s :=
  Text.eq_append_of_dropLead? h ▸ List.suffix_append lead rest

theorem exists_of_afterKeyword? {s rest : List Char} (h : afterKeyword? s = some rest) :
    ∃ word ∈ ["import", "export"], s = word.toList ++ rest := by
  unfold afterKeyword? at h
  split at h
  · rename_i hd
    cases h
    exact ⟨"import", by simp, Text.eq_append_of_dropLead? hd⟩
  · exact ⟨"export", by simp, Text.eq_append_of_dropLead? h⟩

theorem suffix_of_statement? {s rest : List Char} {found : Bool × Hit}
    (h : statement? s = some (found, rest)) : rest <:+ s := by
  simp only [statement?, bind, Option.bind_eq_some_iff, pure, Option.some.injEq,
    Prod.mk.injEq] at h
  obtain ⟨clause, hc, typeOnly, -, ⟨hit, r⟩, hq, rfl, rfl⟩ := h
  obtain ⟨keyword, -, hkeyword⟩ := exists_of_afterKeyword? hc
  have hclause : clause <:+ Text.trimStart s := hkeyword ▸ List.suffix_append _ _
  have htrim : clause <:+ s := hclause.trans (List.dropWhile_suffix _)
  exact (suffix_of_quotedSpecifier? hq).trans ((List.dropWhile_suffix _).trans htrim)

theorem left_lt_of_statement? {s rest : List Char} {found : Bool × Hit}
    (h : statement? s = some (found, rest)) :
    found.2.left < s.length ∧ rest.length < found.2.left := by
  simp only [statement?, bind, Option.bind_eq_some_iff, pure, Option.some.injEq,
    Prod.mk.injEq] at h
  obtain ⟨clause, hc, typeOnly, -, ⟨hit, r⟩, hq, rfl, rfl⟩ := h
  have hleft := left_lt_of_quotedSpecifier? hq
  have hclause := (List.dropWhile_sublist (l := clause) isClauseChar).length_le
  have hkeyword := length_afterKeyword?_le hc
  have htrim := (List.dropWhile_sublist (l := s) Text.isBlank).length_le
  simp only [Text.trimStart] at hkeyword
  exact ⟨by simp only; omega, hleft.2⟩

theorem left_lt_of_mem_below {s : List Char} {found : Bool × Hit}
    (ih : ∀ more, more.length < s.length → found ∈ statements more →
      found.2.left < more.length)
    (h : found ∈ (splitLine s).2.elim [] statements) : found.2.left < s.length := by
  cases hl : (splitLine s).2 with
  | none =>
    rw [hl] at h
    cases h
  | some more =>
    have hlt := length_splitLine_lt hl
    rw [hl] at h
    exact Nat.lt_trans (ih more hlt h) hlt

theorem left_lt_of_mem_statements {s : List Char} {found : Bool × Hit}
    (h : found ∈ statements s) : found.2.left < s.length := by
  induction hn : s.length using Nat.strongRecOn generalizing s with
  | ind n ih =>
    subst hn
    cases hs : statement? s with
    | none =>
      rw [statements_of_none hs] at h
      exact left_lt_of_mem_below (fun more hlt hm => ih more.length hlt hm rfl) h
    | some p =>
      obtain ⟨first, rest⟩ := p
      obtain ⟨hfirst, hrest⟩ := left_lt_of_statement? hs
      have hlt := Nat.lt_trans hrest hfirst
      rw [statements_of_some hs] at h
      rcases List.mem_cons.mp h with rfl | h
      · exact hfirst
      · refine Nat.lt_trans (left_lt_of_mem_below (fun more hm => ?_) h) hlt
        exact fun hf => ih more.length (Nat.lt_trans hm hlt) hf rfl

theorem left_lt_of_mem_statements_below {s : List Char} {found : Bool × Hit}
    (h : found ∈ (splitLine s).2.elim [] statements) : found.2.left < s.length :=
  left_lt_of_mem_below (fun _ _ => left_lt_of_mem_statements) h

theorem left_lt_of_mem_staticHits {s : List Char} {skipTypeOnly : Bool} {hit : Hit}
    (h : hit ∈ staticHits s skipTypeOnly) : hit.left < s.length := by
  obtain ⟨found, hf, rfl⟩ := List.mem_map.mp h
  exact left_lt_of_mem_statements (List.mem_filter.mp hf).1

theorem not_mem_listed {skipTypeOnly : Bool} {hit : Hit} {found : List (Bool × Hit)}
    (h : ∀ f ∈ found, f.2.left < hit.left) : hit ∉ listed skipTypeOnly found := by
  intro hm
  obtain ⟨f, hf, rfl⟩ := List.mem_map.mp hm
  exact Nat.lt_irrefl _ (h f (List.mem_filter.mp hf).1)

theorem suffix_of_argument? {s rest : List Char} {hit : Hit}
    (h : argument? s = some (hit, rest)) : rest <:+ s := by
  simp only [argument?, bind, Option.bind_eq_some_iff, pure, Option.some.injEq,
    Prod.mk.injEq] at h
  obtain ⟨⟨hit', r⟩, hq, r', hd, rfl, rfl⟩ := h
  have hquoted := (suffix_of_quotedSpecifier? hq).trans (List.dropWhile_suffix _)
  exact ((suffix_of_dropLead? hd).trans (List.dropWhile_suffix _)).trans hquoted

theorem left_lt_of_argument? {s rest : List Char} {hit : Hit}
    (h : argument? s = some (hit, rest)) : hit.left < s.length ∧ rest.length < hit.left := by
  simp only [argument?, bind, Option.bind_eq_some_iff, pure, Option.some.injEq,
    Prod.mk.injEq] at h
  obtain ⟨⟨hit', r⟩, hq, r', hd, rfl, rfl⟩ := h
  have hleft := left_lt_of_quotedSpecifier? hq
  have hdrop := length_dropLead?_le hd
  have hstart := (List.dropWhile_sublist (l := s) Text.isBlank).length_le
  have hend := (List.dropWhile_sublist (l := r) Text.isBlank).length_le
  simp only [Text.trimStart] at hleft hdrop
  simp only
  omega

section CallSteps

variable {name rest more : List Char} {inWord : Bool} {c : Char} {hit : Hit}

def call? (name : List Char) (inWord : Bool) (s : List Char) : Option (Hit × List Char) :=
  if inWord then none else (Text.dropLead? (name ++ ['(']) s).bind argument?

theorem calls_of_call?_eq_some (h : call? name inWord (c :: rest) = some (hit, more)) :
    calls name inWord (c :: rest) = hit :: calls name false more := by
  rw [calls]
  unfold call? at h
  cases inWord with
  | true => cases h
  | false =>
    simp only [Bool.false_eq_true, if_false] at h ⊢
    obtain ⟨body, hbody, ha⟩ := Option.bind_eq_some_iff.mp h
    split
    · rename_i body' hb
      obtain rfl : body = body' := Option.some.inj (hbody.symm.trans hb)
      split
      · rename_i ha'
        rw [ha] at ha'
        cases ha'
        rfl
      · rename_i ha'
        rw [ha] at ha'
        cases ha'
    · rename_i hb
      rw [hbody] at hb
      cases hb

theorem calls_of_call?_eq_none (h : call? name inWord (c :: rest) = none) :
    calls name inWord (c :: rest) = calls name (Text.isWord c) rest := by
  rw [calls]
  unfold call? at h
  split
  · rename_i body hb
    cases inWord with
    | true => cases hb
    | false =>
      simp only [Bool.false_eq_true, if_false] at h hb
      rw [hb, Option.bind_some] at h
      split
      · rename_i ha
        rw [h] at ha
        cases ha
      · rfl
  · rfl

theorem left_lt_of_call? {s : List Char} (h : call? name inWord s = some (hit, more)) :
    hit.left < s.length ∧ more.length < hit.left := by
  unfold call? at h
  split at h
  · cases h
  · obtain ⟨body, hb, ha⟩ := Option.bind_eq_some_iff.mp h
    have hbody := length_dropLead?_le hb
    have hleft := left_lt_of_argument? ha
    exact ⟨by omega, hleft.2⟩

theorem suffix_of_call? {s : List Char} (h : call? name inWord s = some (hit, more)) :
    more <:+ s := by
  unfold call? at h
  split at h
  · cases h
  · obtain ⟨body, hb, ha⟩ := Option.bind_eq_some_iff.mp h
    exact (suffix_of_argument? ha).trans (suffix_of_dropLead? hb)

end CallSteps

theorem left_lt_of_mem_calls {name s : List Char} {inWord : Bool} {hit : Hit}
    (h : hit ∈ calls name inWord s) : hit.left < s.length := by
  induction hn : s.length using Nat.strongRecOn generalizing s inWord with
  | ind n ih =>
    subst hn
    cases s with
    | nil =>
      rw [calls] at h
      cases h
    | cons c rest =>
      cases hc : call? name inWord (c :: rest) with
      | none =>
        rw [calls_of_call?_eq_none hc] at h
        have hlt : rest.length < (c :: rest).length := by simp
        exact Nat.lt_trans (ih rest.length hlt h rfl) hlt
      | some p =>
        obtain ⟨first, more⟩ := p
        obtain ⟨hfirst, hmore⟩ := left_lt_of_call? hc
        have hlt := Nat.lt_trans hmore hfirst
        rw [calls_of_call?_eq_some hc] at h
        rcases List.mem_cons.mp h with rfl | h
        · exact hfirst
        · exact Nat.lt_trans (ih more.length hlt h rfl) hlt

end WorkspaceCycles.Source
