import Mathlib.Data.List.Infix
import Mathlib.Data.List.TakeWhile
import WorkspaceCycles.Proofs.BlankLines

/-!
Texts that are cut in two. Behind the cut stands a character at which every reader stops, so what
is found before it is found as if the text ended there, and what stands behind is read apart.
-/

namespace WorkspaceCycles.Source

def isStop (c : Char) : Bool :=
  !isClauseChar c && !isQuote c && c != '(' && c != ')'

def IsCut (z : List Char) : Prop :=
  ∃ blanks rest, z = blanks ++ rest ∧ (∀ c ∈ blanks, Text.isBlank c) ∧ ∀ c ∈ rest.head?, isStop c

def IsQuiet (z : List Char) : Prop :=
  ∀ c ∈ z.takeWhile notNewline, isQuote c = false

def LeavesOpen (lead : List Char → Prop) (s : List Char) : Prop :=
  ∃ before quote specifier, s = before ++ quote :: specifier ∧ lead before ∧ isQuote quote ∧
    ∀ c ∈ specifier, isSpecifierChar c

def IsStatementLead (s : List Char) : Prop :=
  ∃ blanks clause, ∃ keyword ∈ ["import", "export"], s = blanks ++ (keyword.toList ++ clause) ∧
    (∀ c ∈ blanks, Text.isBlank c) ∧ (∀ c ∈ clause, isClauseChar c) ∧ typeOnly? clause ≠ none

def IsCallLead (s : List Char) : Prop :=
  ∃ blanks, ∃ name ∈ ["require", "import"], s = name.toList ++ '(' :: blanks ∧
    ∀ c ∈ blanks, Text.isBlank c

/-- A statement or a call has opened a specifier on the last line that is not closed there. -/
inductive EndsInSpecifier : List Char → Prop
  | statement {above s : List Char} (ha : EndsLine above) (hs : LeavesOpen IsStatementLead s) :
      EndsInSpecifier (above ++ s)
  | call {above s : List Char} (hs : LeavesOpen IsCallLead s) : EndsInSpecifier (above ++ s)

inductive Cut (z : List Char) : List Char → List Char → Prop
  | before (v : List Char) : Cut z v (v ++ z)
  | behind {r : List Char} (hr : IsCut r) : Cut z [] r

theorem isClauseChar_of_isStop {c : Char} (h : isStop c) : isClauseChar c = false := by
  simp only [isStop, Bool.and_eq_true, Bool.not_eq_true'] at h
  exact h.1.1.1

theorem not_isBlank_of_isStop {c : Char} (h : isStop c) : Text.isBlank c = false := by
  cases hb : Text.isBlank c with
  | false => rfl
  | true => rw [← isClauseChar_of_isStop h, isClauseChar_of_isBlank hb]

theorem not_isQuote_of_isBlank {c : Char} (h : Text.isBlank c) : isQuote c = false := by
  cases hq : isQuote c with
  | false => rfl
  | true => rw [← isClauseChar_of_isQuote hq, isClauseChar_of_isBlank h]

def isLeadChar (c : Char) : Bool :=
  !Text.isBlank c && !isStop c

namespace IsCut

variable {z : List Char} (hz : IsCut z)

include hz

theorem dropWhile {p : Char → Bool} (hblank : ∀ c, Text.isBlank c → p c)
    (hstop : ∀ c, isStop c → p c = false) : IsCut (z.dropWhile p) := by
  obtain ⟨blanks, rest, rfl, hblanks, hrest⟩ := hz
  have hhead : ∀ c ∈ rest.head?, p c = false := fun c hc => hstop c (hrest c hc)
  refine ⟨[], rest, ?_, by simp, hrest⟩
  rw [dropWhile_append_of_head hhead,
    List.dropWhile_eq_nil_iff.mpr fun c hc => hblank c (hblanks c hc)]

theorem isBlank_or_isStop : ∀ c ∈ z.head?, Text.isBlank c ∨ isStop c := by
  obtain ⟨blanks, rest, rfl, hblanks, hrest⟩ := hz
  intro c hc
  cases blanks with
  | nil => exact .inr (hrest c hc)
  | cons a blanks => exact .inl (hblanks c (List.mem_of_head? hc))

theorem dropLead?_eq_none {lead : List Char} (hne : lead ≠ [])
    (hlead : ∀ c ∈ lead, isLeadChar c) : Text.dropLead? lead z = none := by
  obtain ⟨a, lead, rfl⟩ := List.exists_cons_of_ne_nil hne
  cases z with
  | nil => rfl
  | cons c z =>
    have ha := hlead a (List.mem_cons_self ..)
    simp only [isLeadChar, Bool.and_eq_true, Bool.not_eq_true'] at ha
    rw [Text.dropLead?, if_neg]
    intro he
    obtain rfl := eq_of_beq he
    rcases hz.isBlank_or_isStop a rfl with h | h
    · rw [ha.1] at h
      cases h
    · rw [ha.2] at h
      cases h

theorem quotedSpecifier?_eq_none : quotedSpecifier? z = none := by
  cases z with
  | nil => rfl
  | cons c z =>
    apply quotedSpecifier?_cons_of_not_isQuote
    rcases hz.isBlank_or_isStop c rfl with h | h
    · exact not_isQuote_of_isBlank h
    · simp only [isStop, Bool.and_eq_true, Bool.not_eq_true'] at h
      exact h.1.1.2

end IsCut

theorem quotedSpecifier?_eq_none_of_line {q : Char} {r z : List Char}
    (hr : ∀ c ∈ r, isSpecifierChar c) (hz : IsQuiet z) :
    quotedSpecifier? (q :: (r ++ z)) = none := by
  have hline : ∀ c ∈ r ++ z.takeWhile notNewline, isSpecifierChar c := by
    refine List.forall_mem_append.mpr ⟨hr, fun c hc => ?_⟩
    have hn := List.mem_takeWhile_imp hc
    simp only [isSpecifierChar, hz c hc, Bool.not_false, Bool.true_and]
    exact hn
  have hsplit : r ++ z = (r ++ z.takeWhile notNewline) ++ z.dropWhile notNewline := by
    rw [List.append_assoc, List.takeWhile_append_dropWhile]
  rw [hsplit]
  cases hd : z.dropWhile notNewline with
  | nil =>
    rw [List.append_nil, quotedSpecifier?, List.dropWhile_eq_nil_iff.mpr hline]
  | cons c more =>
    have hc : notNewline c = false := by
      have hhead := List.head?_dropWhile_not notNewline z
      simpa [hd] using hhead
    obtain rfl : c = '\n' := by simpa [notNewline] using hc
    exact quotedSpecifier?_of_newline hline more

section Readers

variable {z v v' : List Char} (hz : IsCut z)

include hz

theorem Cut.isCut (h : Cut z [] v') : IsCut v' := by
  generalize hv : [] = v at h
  cases h with
  | before => rwa [← hv]
  | behind hr => exact hr

theorem Cut.dropWhile {p : Char → Bool} (hblank : ∀ c, Text.isBlank c → p c)
    (hstop : ∀ c, isStop c → p c = false) (h : Cut z v v') :
    Cut z (v.dropWhile p) (v'.dropWhile p) := by
  cases h with
  | before =>
    rw [List.dropWhile_append]
    split
    · rename_i hv
      rw [List.isEmpty_iff.mp hv]
      exact .behind (hz.dropWhile hblank hstop)
    · exact .before _
  | behind hr => exact .behind (hr.dropWhile hblank hstop)

theorem Cut.trimStart (h : Cut z v v') : Cut z (Text.trimStart v) (Text.trimStart v') :=
  h.dropWhile hz (fun _ hc => hc) fun _ => not_isBlank_of_isStop

theorem Cut.dropLead? {lead : List Char} (hne : lead ≠ []) (hlead : ∀ c ∈ lead, isLeadChar c)
    (h : Cut z v v') : Text.dropLead? lead v' = (Text.dropLead? lead v).map (· ++ z) := by
  induction v generalizing lead v' with
  | nil =>
    obtain ⟨a, lead, rfl⟩ := List.exists_cons_of_ne_nil hne
    rw [(h.isCut hz).dropLead?_eq_none hne hlead]
    rfl
  | cons b v ih =>
    obtain ⟨a, lead, rfl⟩ := List.exists_cons_of_ne_nil hne
    cases h with
    | before =>
      rw [List.cons_append, Text.dropLead?, Text.dropLead?]
      split
      · by_cases hnil : lead = []
        · rw [hnil]
          rfl
        · exact ih hnil (fun c hc => hlead c (List.mem_cons_of_mem a hc)) (.before v)
      · rfl

theorem Cut.quotedSpecifier? (h : Cut z v v')
    (hopen : LeavesOpen (· = []) v → IsQuiet z) :
    quotedSpecifier? v' =
      (quotedSpecifier? v).map fun p => (p.1.lift z.length, p.2 ++ z) := by
  cases v with
  | nil =>
    rw [(h.isCut hz).quotedSpecifier?_eq_none]
    rfl
  | cons q r =>
    cases h with
    | before =>
      rw [List.cons_append]
      by_cases hr : ∀ c ∈ r, isSpecifierChar c
      · cases hq : isQuote q with
        | false =>
          rw [quotedSpecifier?_cons_of_not_isQuote hq, quotedSpecifier?_cons_of_not_isQuote hq]
          rfl
        | true =>
          have hline := hopen ⟨[], q, r, rfl, rfl, hq, hr⟩
          have hnone := quotedSpecifier?_eq_none_of_line (q := q) (z := []) hr (by simp [IsQuiet])
          rw [List.append_nil] at hnone
          rw [quotedSpecifier?_eq_none_of_line hr hline, hnone]
          rfl
      · simp only [not_forall, Bool.not_eq_true] at hr
        obtain ⟨c, hc, hend⟩ := hr
        exact quotedSpecifier?_cons_append hc hend z

theorem Cut.afterKeyword? (h : Cut z v v') :
    afterKeyword? v' = (afterKeyword? v).map (· ++ z) := by
  have himport : ∀ c ∈ "import".toList, isLeadChar c := List.all_eq_true.mp (by decide)
  have hexport : ∀ c ∈ "export".toList, isLeadChar c := List.all_eq_true.mp (by decide)
  unfold Source.afterKeyword?
  rw [h.dropLead? hz (by decide) himport, h.dropLead? hz (by decide) hexport]
  cases Text.dropLead? "import".toList v <;> rfl

theorem Cut.statement? (h : Cut z v v') (hopen : LeavesOpen IsStatementLead v → IsQuiet z) :
    statement? v' =
      (statement? v).map fun p => ((p.1.1, p.1.2.lift z.length), p.2 ++ z) := by
  rw [Source.statement?, Source.statement?, (h.trimStart hz).afterKeyword? hz]
  cases hk : Source.afterKeyword? (Text.trimStart v) with
  | none => rfl
  | some x =>
    simp only [bind, Option.map_some, Option.bind_some]
    have hclause : Cut z (x.dropWhile isClauseChar) ((x ++ z).dropWhile isClauseChar) :=
      (Cut.before x).dropWhile hz (fun _ => isClauseChar_of_isBlank) fun _ => isClauseChar_of_isStop
    by_cases hall : ∀ c ∈ x, isClauseChar c
    · rw [List.dropWhile_eq_nil_iff.mpr hall] at hclause ⊢
      have hnil : Source.quotedSpecifier? [] = none := rfl
      rw [(hclause.isCut hz).quotedSpecifier?_eq_none, hnil]
      simp
    · simp only [not_forall, Bool.not_eq_true] at hall
      obtain ⟨c, hc, hp⟩ := hall
      rw [takeWhile_append_of_mem hc hp]
      cases ht : typeOnly? (x.takeWhile isClauseChar) with
      | none => rfl
      | some typeOnly =>
        have hquoted := hclause.quotedSpecifier? hz ?_
        · rw [hquoted]
          cases Source.quotedSpecifier? (x.dropWhile isClauseChar) <;> rfl
        · rintro ⟨_, quote, specifier, hd, rfl, hquote, hspecifier⟩
          obtain ⟨keyword, hkeyword, hx⟩ := exists_of_afterKeyword? hk
          apply hopen
          refine ⟨v.takeWhile Text.isBlank ++ (keyword.toList ++ x.takeWhile isClauseChar), quote,
            specifier, ?_, ⟨_, _, keyword, hkeyword, rfl, ?_, ?_, by simp [ht]⟩, hquote, hspecifier⟩
          · rw [List.nil_append] at hd
            rw [List.append_assoc, List.append_assoc, ← hd, List.takeWhile_append_dropWhile, ← hx,
              Text.trimStart, List.takeWhile_append_dropWhile]
          · exact fun c => List.mem_takeWhile_imp
          · exact fun c => List.mem_takeWhile_imp

theorem Cut.argument? (h : Cut z v v')
    (hopen : LeavesOpen (fun s => ∀ c ∈ s, Text.isBlank c) v → IsQuiet z) :
    argument? v' = (argument? v).map fun p => (p.1.lift z.length, p.2 ++ z) := by
  have hbracket : ∀ c ∈ [')'], isLeadChar c := List.all_eq_true.mp (by decide)
  have hquoted := (h.trimStart hz).quotedSpecifier? hz ?_
  · rw [Source.argument?, Source.argument?, hquoted]
    cases Source.quotedSpecifier? (Text.trimStart v) with
    | none => rfl
    | some p =>
      simp only [bind, Option.map_some, Option.bind_some]
      rw [((Cut.before p.2).trimStart hz).dropLead? hz (by simp) hbracket]
      cases Text.dropLead? [')'] (Text.trimStart p.2) <;> rfl
  · rintro ⟨_, quote, specifier, hd, rfl, hquote, hspecifier⟩
    refine hopen ⟨v.takeWhile Text.isBlank, quote, specifier, ?_, ?_, hquote, hspecifier⟩
    · rw [List.nil_append, Text.trimStart] at hd
      rw [← hd, List.takeWhile_append_dropWhile]
    · exact fun c => List.mem_takeWhile_imp

variable {name : String} (hname : name ∈ ["require", "import"])

include hname

theorem Cut.call? (inWord : Bool) (h : Cut z v v')
    (hopen : LeavesOpen IsCallLead v → IsQuiet z) :
    call? name.toList inWord v' =
      (call? name.toList inWord v).map fun p => (p.1.lift z.length, p.2 ++ z) := by
  have hlead : ∀ c ∈ name.toList ++ ['('], isLeadChar c := by
    have hall : ["require", "import"].all fun n => (n.toList ++ ['(']).all isLeadChar := by decide
    exact List.all_eq_true.mp (List.all_eq_true.mp hall name hname)
  unfold Source.call?
  split
  · rfl
  · rw [h.dropLead? hz (by simp) hlead]
    cases hd : Text.dropLead? (name.toList ++ ['(']) v with
    | none => rfl
    | some body =>
      simp only [Option.map_some, Option.bind_some]
      apply (Cut.before body).argument? hz
      rintro ⟨blanks, quote, specifier, rfl, hblanks, hrest⟩
      refine hopen ⟨name.toList ++ '(' :: blanks, quote, specifier, ?_,
        ⟨blanks, name, hname, rfl, hblanks⟩, hrest⟩
      rw [Text.eq_append_of_dropLead? hd]
      simp

end Readers

section Whole

variable {z : List Char} (hz : IsCut z)

include hz

theorem calls_append_cut {name : String} (hname : name ∈ ["require", "import"]) {v : List Char}
    (hopen : ∀ w, w <:+ v → LeavesOpen IsCallLead w → IsQuiet z) (inWord : Bool) :
    ∃ inWord', calls name.toList inWord (v ++ z) =
      (calls name.toList inWord v).map (Hit.lift z.length) ++ calls name.toList inWord' z := by
  induction hn : v.length using Nat.strongRecOn generalizing v inWord with
  | ind n ih =>
    subst hn
    cases v with
    | nil => exact ⟨inWord, by rw [calls_nil]; rfl⟩
    | cons c v =>
      have hcall := (Cut.before (c :: v)).call? hz hname inWord (hopen _ List.suffix_rfl)
      cases hc : call? name.toList inWord (c :: v) with
      | none =>
        rw [hc] at hcall
        have htail : ∀ w, w <:+ v → LeavesOpen IsCallLead w → IsQuiet z :=
          fun w hw => hopen w (hw.trans (List.suffix_cons c v))
        obtain ⟨inWord', hv⟩ := ih v.length (by simp) htail (Text.isWord c) rfl
        refine ⟨inWord', ?_⟩
        rw [calls_of_call?_eq_none hc, ← hv]
        exact calls_of_call?_eq_none hcall
      | some p =>
        obtain ⟨hit, more⟩ := p
        rw [hc] at hcall
        have hmore := suffix_of_call? hc
        have hlt := left_lt_of_call? hc
        obtain ⟨inWord', hv⟩ := ih more.length (Nat.lt_trans hlt.2 hlt.1)
          (fun w hw => hopen w (hw.trans hmore)) false rfl
        refine ⟨inWord', (calls_of_call?_eq_some hcall).trans ?_⟩
        rw [calls_of_call?_eq_some hc, hv]
        rfl

theorem statements_append_cut {v : List Char}
    (hopen : ∀ above w, v = above ++ w → EndsLine above → LeavesOpen IsStatementLead w →
      IsQuiet z) :
    statements (v ++ z) = (statements v).map (fun found => (found.1, found.2.lift z.length)) ++
      (splitLine z).2.elim [] statements := by
  induction hn : v.length using Nat.strongRecOn generalizing v with
  | ind n ih =>
    subst hn
    -- the search goes on at the start of a line, above the cut or behind it
    have hline : ∀ {rest}, rest <:+ v → (splitLine (rest ++ z)).2.elim [] statements =
        ((splitLine rest).2.elim [] statements).map
            (fun found => (found.1, found.2.lift z.length)) ++
          (splitLine z).2.elim [] statements := by
      intro rest hrest
      by_cases hnl : '\n' ∈ rest
      · obtain ⟨line, more, rfl, hno⟩ := List.eq_append_cons_of_mem hnl
        obtain ⟨before, rfl⟩ := hrest
        rw [List.append_assoc, List.cons_append, splitLine_append hno, splitLine_append hno]
        refine ih more.length ?_ (fun above w hw ha => ?_) rfl
        · simp only [List.length_append, List.length_cons]
          omega
        · have hbefore : EndsLine (before ++ (line ++ ['\n'])) := by
            simp [EndsLine, ← List.append_assoc]
          refine hopen (before ++ (line ++ ['\n']) ++ above) w ?_ (hbefore.append ha)
          simp [hw]
      · rw [snd_splitLine_append hnl, snd_splitLine_eq_none hnl]
        rfl
    have hstatement := (Cut.before v).statement? hz (hopen [] v rfl (by simp [EndsLine]))
    cases hs : statement? v with
    | none =>
      rw [hs] at hstatement
      rw [statements_of_none hs, ← hline List.suffix_rfl]
      exact statements_of_none hstatement
    | some p =>
      obtain ⟨found, rest⟩ := p
      rw [hs] at hstatement
      rw [statements_of_some hs, List.map_cons, List.cons_append, ← hline (suffix_of_statement? hs)]
      exact statements_of_some hstatement

theorem listedIn_append_cut {v w : List Char} (hopen : EndsInSpecifier v → IsQuiet z)
    (hw : w.length ≤ z.length)
    (hstatements : (splitLine z).2.elim [] statements = statements w)
    (hcalls : ∀ name ∈ ["require", "import"], ∀ inWord,
      calls name.toList inWord z = calls name.toList false w)
    (skipTypeOnly skipDynamicImports : Bool) :
    listedIn (v ++ z) skipTypeOnly skipDynamicImports =
      listedIn v skipTypeOnly skipDynamicImports ++ listedIn w skipTypeOnly skipDynamicImports := by
  have hstatic : staticHits (v ++ z) skipTypeOnly =
      (staticHits v skipTypeOnly).map (Hit.lift z.length) ++ staticHits w skipTypeOnly := by
    have hcut := statements_append_cut hz (v := v) fun above s hv habove hs =>
      hopen (hv ▸ .statement habove hs)
    rw [staticHits, hcut, listed_append, listed_map, hstatements]
    rfl
  have hcall : ∀ name ∈ ["require", "import"], calls name.toList false (v ++ z) =
      (calls name.toList false v).map (Hit.lift z.length) ++ calls name.toList false w := by
    intro name hname
    have hcalled : ∀ s, s <:+ v → LeavesOpen IsCallLead s → IsQuiet z := by
      rintro s ⟨above, rfl⟩ hs
      exact hopen (.call hs)
    obtain ⟨inWord', hcut⟩ := calls_append_cut hz hname hcalled false
    rw [hcut, hcalls name hname]
  have hfar : ∀ hits : List Hit,
      (hits.map (Hit.lift z.length)).filter (z.length ≤ ·.left) = hits.map (Hit.lift z.length) ∧
        (hits.map (Hit.lift z.length)).filter (·.left < z.length) = [] :=
    fun hits => filter_of_le_left (by simp [Hit.lift])
  have hs := filter_of_left_lt fun hit (hm : hit ∈ staticHits w skipTypeOnly) =>
    Nat.lt_of_lt_of_le (left_lt_of_mem_staticHits hm) hw
  have hc := fun name : String =>
    filter_of_left_lt fun hit (hm : hit ∈ calls name.toList false w) =>
      Nat.lt_of_lt_of_le (left_lt_of_mem_calls hm) hw
  have hsides : ((staticHits (v ++ z) skipTypeOnly ++ callHits (v ++ z) skipDynamicImports).filter
        (z.length ≤ ·.left) =
        (staticHits v skipTypeOnly ++ callHits v skipDynamicImports).map (Hit.lift z.length)) ∧
      (staticHits (v ++ z) skipTypeOnly ++ callHits (v ++ z) skipDynamicImports).filter
        (·.left < z.length) = staticHits w skipTypeOnly ++ callHits w skipDynamicImports := by
    rw [hstatic, callHits, callHits, callHits, hcall "require" (by simp), hcall "import" (by simp)]
    cases skipDynamicImports <;>
      simp only [Bool.false_eq_true, if_false, if_true, List.append_nil, List.filter_append,
        List.map_append, List.nil_append, List.append_assoc, hfar, hs, hc, and_self]
  have hlift : inOrder ((staticHits v skipTypeOnly ++ callHits v skipDynamicImports).map
      (Hit.lift z.length)) = listedIn v skipTypeOnly skipDynamicImports :=
    inOrder_map (fun hit _ => rfl) fun a _ b _ => Nat.add_le_add_iff_right
  rw [listedIn, inOrder_eq_append _ hsides.1 hsides.2, hlift]
  rfl

end Whole

theorem listedIn_nil (skipTypeOnly skipDynamicImports : Bool) :
    listedIn [] skipTypeOnly skipDynamicImports = [] := by
  rw [listedIn, staticHits, statements_of_none rfl, callHits, calls_nil, calls_nil, ite_self]
  simp [listed, inOrder, splitLine]

theorem listedIn_append_blank {u b : List Char} (hu : EndsLine u)
    (hblank : ∀ c ∈ b, Text.isBlank c) (skipTypeOnly skipDynamicImports : Bool) :
    listedIn (u ++ b) skipTypeOnly skipDynamicImports =
      listedIn u skipTypeOnly skipDynamicImports := by
  obtain ⟨above, line, rfl, habove, hline⟩ := exists_last_line b
  rw [List.forall_mem_append] at hblank
  have hnothing : Text.trimStart line = [] := List.dropWhile_eq_nil_iff.mpr hblank.2
  have hcut : IsCut line := ⟨line, [], (List.append_nil line).symm, hblank.2, by simp⟩
  have hquiet : IsQuiet line := fun c hc =>
    not_isQuote_of_isBlank (hblank.2 c ((List.takeWhile_prefix _).subset hc))
  have hbracket : '(' ∉ line := fun hm => absurd (hblank.2 _ hm) (by decide)
  have hcalls : ∀ name ∈ ["require", "import"], ∀ inWord,
      calls name.toList inWord line = calls name.toList false [] := by
    intro name _ inWord
    rw [calls_nil]
    refine calls_eq_nil (fun body hbody => ?_) inWord
    exact absurd (hbody.subset (by simp)) hbracket
  have hstatements : (splitLine line).2.elim [] statements = statements [] := by
    rw [snd_splitLine_eq_none hline, statements_of_none rfl]
    rfl
  have hbare : ∀ n, ¬ IsBareFromOf n u line := by
    intro n h
    have hfrom := h.from_after
    rw [hnothing] at hfrom
    exact absurd hfrom (by decide)
  rw [listedIn_insert_blank hu habove hblank.1 (fun n h => absurd h (hbare n)),
    listedIn_append_cut hcut (fun _ => hquiet) (Nat.zero_le _) hstatements hcalls, listedIn_nil,
    List.append_nil]

end WorkspaceCycles.Source
