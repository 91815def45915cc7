import Mathlib.Data.List.TakeWhile
import WorkspaceCycles.Proofs.ListedHits
import WorkspaceCycles.Proofs.PrintedCalls

namespace WorkspaceCycles.Source

section ClauseRun

theorem isQuote_ne {q c : Char} (hq : isQuote q) (hc : isQuote c = false) : q ≠ c := by
  rintro rfl
  rw [hq] at hc
  cases hc

theorem snd_splitLine_of_quotedSpecifier? {s rest : List Char} {hit : Hit}
    (h : quotedSpecifier? s = some (hit, rest)) : (splitLine s).2 = (splitLine rest).2 := by
  obtain ⟨opening, closing, rfl, -, ho, hc, hs⟩ := exists_of_quotedSpecifier? h
  have hline : '\n' ∉ opening :: (hit.specifier ++ [closing]) := by
    simp only [List.mem_cons, List.mem_append, List.not_mem_nil, or_false, not_or]
    exact ⟨(isQuote_ne ho (by decide)).symm, fun hm => absurd (hs _ hm) (by decide),
      (isQuote_ne hc (by decide)).symm⟩
  have heq : opening :: (hit.specifier ++ closing :: rest) =
      opening :: (hit.specifier ++ [closing]) ++ rest := by simp
  rw [heq, snd_splitLine_append hline]

variable {q : Char} {s rest : List Char} {hit : Hit}

variable (hq : isQuote q) (hs : quotedSpecifier? (q :: s) = some (hit, rest))

include hq

theorem afterKeyword?_append_quote {r x : List Char} (h : afterKeyword? (r ++ q :: s) = some x) :
    ∃ keyword t, r = keyword ++ t ∧ x = t ++ q :: s := by
  obtain ⟨word, hword, he⟩ := exists_of_afterKeyword? h
  have hne : q ∉ word.toList := by
    have hall : ["import", "export"].all fun k => k.toList.all fun c => !isQuote c := by decide
    intro hm
    have hc := List.all_eq_true.mp (List.all_eq_true.mp hall word hword) q hm
    simp [hq] at hc
  rcases List.append_eq_append_iff.mp he with ⟨t, ht, hx⟩ | ⟨t, ht, hx⟩
  · cases t with
    | nil => exact ⟨word.toList, [], by simpa using ht.symm, hx.symm⟩
    | cons c t =>
      obtain rfl := (List.cons.inj hx).1
      exact absurd (ht ▸ List.mem_append_right r (List.mem_cons_self ..)) hne
  · exact ⟨word.toList, t, ht, hx⟩

theorem trimStart_append_quote (r : List Char) :
    Text.trimStart (r ++ q :: s) = Text.trimStart r ++ q :: s := by
  have hblank : Text.isBlank q = false := by
    simp only [isQuote, Bool.or_eq_true, beq_iff_eq] at hq
    rcases hq with rfl | rfl <;> decide
  rw [Text.trimStart, Text.trimStart, List.dropWhile_append]
  split
  · rename_i he
    rw [List.isEmpty_iff.mp he]
    simp [hblank]
  · rfl

theorem takeWhile_append_quote {r : List Char} (hr : ∀ c ∈ r, isClauseChar c) :
    (r ++ q :: s).takeWhile isClauseChar = r := by
  rw [List.takeWhile_append_of_pos hr]
  simp [isClauseChar_of_isQuote hq]

theorem dropWhile_append_quote {r : List Char} (hr : ∀ c ∈ r, isClauseChar c) :
    (r ++ q :: s).dropWhile isClauseChar = q :: s := by
  rw [List.dropWhile_append_of_pos hr]
  simp [isClauseChar_of_isQuote hq]

include hs

theorem statement?_append_quote {r : List Char} (hr : ∀ c ∈ r, isClauseChar c) :
    statement? (r ++ q :: s) = none ∨ ∃ t, statement? (r ++ q :: s) = some ((t, hit), rest) := by
  rw [statement?, trimStart_append_quote hq]
  cases hk : afterKeyword? (Text.trimStart r ++ q :: s) with
  | none => exact .inl rfl
  | some x =>
    obtain ⟨keyword, clause, hkey, rfl⟩ := afterKeyword?_append_quote hq hk
    have hclause : ∀ c ∈ clause, isClauseChar c := by
      intro c hc
      have hm : c ∈ Text.trimStart r := hkey ▸ List.mem_append_right _ hc
      exact hr c ((List.dropWhile_sublist _).subset hm)
    simp only [bind, Option.bind_some, takeWhile_append_quote hq hclause,
      dropWhile_append_quote hq hclause, hs]
    cases typeOnly? clause with
    | none => exact .inl rfl
    | some t => exact .inr ⟨t, rfl⟩

theorem statements_append_quote {r : List Char} (hr : ∀ c ∈ r, isClauseChar c) :
    statements (r ++ q :: s) = (splitLine rest).2.elim [] statements ∨
      ∃ t, statements (r ++ q :: s) = (t, hit) :: (splitLine rest).2.elim [] statements := by
  induction hn : r.length using Nat.strongRecOn generalizing r with
  | ind n ih =>
    rcases statement?_append_quote hq hs hr with hnone | ⟨t, hsome⟩
    · rw [statements_of_none hnone]
      by_cases hnl : '\n' ∈ r
      · obtain ⟨line, more, rfl, hline⟩ := List.eq_append_cons_of_mem hnl
        rw [List.append_assoc, List.cons_append, splitLine_append hline]
        refine ih more.length ?_ (fun c hc => hr c (by simp [hc])) rfl
        simp only [List.length_append, List.length_cons] at hn
        omega
      · rw [snd_splitLine_append hnl, snd_splitLine_of_quotedSpecifier? hs]
        exact .inl rfl
    · exact .inr ⟨t, statements_of_some hsome⟩

end ClauseRun

def Statement.text (s : Statement) : List Char :=
  s.form.lead ++ s.quote.char :: (s.specifier.text ++ [s.quote.char])

theorem Statement.text_append (s : Statement) (more : List Char) :
    s.text ++ more = s.form.lead ++ s.quote.char :: (s.specifier.text ++ s.quote.char :: more) := by
  simp [text]

def Form.isFrom : Form → Bool
  | .sideEffect => false
  | .requires _ => false
  | .awaits _ => false
  | _ => true

theorem Form.callee?_of_isFrom {f : Form} (h : f.isFrom) : f.callee? = none := by
  cases f with
  | requires name => cases h
  | awaits name => cases h
  | _ => rfl

theorem Form.exists_lead_of_isFrom {f : Form} (h : f.isFrom) :
    ∃ before, f.lead = before ++ " from ".toList := by
  cases f with
  | imports clause => exact ⟨"import ".toList ++ clause.text, rfl⟩
  | importsTypes clause => exact ⟨"import type ".toList ++ clause.text, rfl⟩
  | exportsAll => exact ⟨"export *".toList, rfl⟩
  | exportsAllAs name => exact ⟨"export * as ".toList ++ name.text, rfl⟩
  | exports bindings => exact ⟨"export ".toList ++ bindingsText bindings, rfl⟩
  | exportsTypes bindings => exact ⟨"export type ".toList ++ bindingsText bindings, rfl⟩
  | sideEffect => cases h
  | requires name => cases h
  | awaits name => cases h

theorem Form.isClauseChar_lead {f : Form} (h : f.callee? = none) : ∀ c ∈ f.lead, isClauseChar c := by
  obtain ⟨keyword, clause, hk, hl, hs, -⟩ := lead_static h
  rw [hl, List.forall_mem_append]
  refine ⟨?_, fun c hc => isClauseChar_of_isPrintedChar (hs c hc)⟩
  rcases hk with rfl | rfl
  · exact List.all_eq_true.mp (by decide)
  · exact List.all_eq_true.mp (by decide)

namespace Statement

variable (s : Statement) (more : List Char)

theorem text_eq_cons : ∃ c t, s.text = c :: t ∧ isIdentifierChar c := by
  obtain ⟨c, t, hl, hc⟩ := s.line_eq_cons
  have hline : s.line = s.text ++ (s.form.trail ++ [';']) := by simp [line, text]
  cases ht : s.text with
  | nil => simp [text] at ht
  | cons a u =>
    rw [hline, ht, List.cons_append] at hl
    exact ⟨a, u, rfl, (List.cons.inj hl).1 ▸ hc⟩

theorem newline_not_mem_text : '\n' ∉ s.text := by
  have hline : s.line = s.text ++ (s.form.trail ++ [';']) := by simp [line, text]
  intro hm
  exact s.newline_not_mem_line (hline ▸ List.mem_append_left _ hm)

theorem dropBlockComments_text_append :
    dropBlockComments (s.text ++ more) = s.text ++ dropBlockComments more := by
  have hlead : '/' ∉ s.form.lead := s.form.not_mem_lead (by decide) (by decide)
  have hslash : s.quote.char ≠ '/' := Quote.char_ne (by decide)
  have hstar : s.quote.char ≠ '*' := Quote.char_ne (by decide)
  rw [text_append, text_append, dropBlockComments_append hlead, dropBlockComments_cons hslash,
    dropBlockComments_append_cons s.specifier.no_comment hstar, dropBlockComments_cons hslash]

theorem exists_dropComments_text_append : ∃ rest, dropComments (s.text ++ more) = s.text ++ rest := by
  obtain ⟨c, t, ht, hc⟩ := s.text_eq_cons
  have hblank := not_isBlank_of_isIdentifierChar hc
  have hstart : ∀ r, startsLineComment (c :: t ++ r) = false := by
    intro r
    have hslash : c ≠ '/' := by
      rintro rfl
      exact absurd hc (by decide)
    unfold startsLineComment
    split
    · rename_i h
      exact absurd (List.cons.inj h).1 hslash
    · rfl
  have hline : ∀ x ∈ c :: t, notNewline x := notNewline_of_mem (ht ▸ s.newline_not_mem_text)
  rw [dropComments, dropBlockComments_text_append, ht, dropLineComments_eq, List.cons_append,
    List.dropWhile_cons_of_neg (by simp [hblank]), List.takeWhile_cons_of_neg (by simp [hblank]),
    ← List.cons_append, hstart, splitLine, List.takeWhile_append_of_pos hline]
  exact ⟨_, by rw [if_neg (by decide), List.nil_append, List.append_assoc]⟩

def hitBefore : Hit :=
  ⟨(s.specifier.text ++ s.quote.char :: more).length, s.specifier.text⟩

theorem quotedSpecifier?_text :
    quotedSpecifier? (s.quote.char :: (s.specifier.text ++ s.quote.char :: more)) =
      some (s.hitBefore more, more) := by
  have hend := isSpecifierChar_of_isQuote s.quote.isQuote_char
  have htake : (s.specifier.text ++ s.quote.char :: more).takeWhile isSpecifierChar =
      s.specifier.text := by
    rw [List.takeWhile_append_of_pos s.specifier.chars]
    simp [hend]
  have hdrop : (s.specifier.text ++ s.quote.char :: more).dropWhile isSpecifierChar =
      s.quote.char :: more := by
    rw [List.dropWhile_append_of_pos s.specifier.chars]
    simp [hend]
  simp [quotedSpecifier?, htake, hdrop, s.quote.isQuote_char, s.specifier.ne_nil, hitBefore]

theorem statement?_text_append {s : Statement} (h : s.form.callee? = none) (more : List Char) :
    statement? (s.text ++ more) = some ((s.form.isTypeOnly, s.hitBefore more), more) := by
  obtain ⟨keyword, clause, hk, hl, hs, ht⟩ := Form.lead_static h
  have hclause : ∀ c ∈ clause, isClauseChar c := fun c hc => isClauseChar_of_isPrintedChar (hs c hc)
  have hquote := s.quote.isQuote_char
  have htrim : Text.trimStart (s.text ++ more) = s.text ++ more := by
    obtain ⟨c, t, hc, hi⟩ := s.text_eq_cons
    rw [hc, List.cons_append, Text.trimStart,
      List.dropWhile_cons_of_neg (by simp [not_isBlank_of_isIdentifierChar hi])]
  rw [statement?, htrim, text_append, hl, List.append_assoc, afterKeyword?_append hk]
  simp only [bind, Option.bind_some, takeWhile_append_quote hquote hclause,
    dropWhile_append_quote hquote hclause, ht, quotedSpecifier?_text]
  rfl

theorem mem_staticHits_text_append {s : Statement} (h : s.form.callee? = none) (more : List Char)
    (skipTypeOnly : Bool) : s.hitBefore more ∈ staticHits (s.text ++ more) skipTypeOnly ↔
      (s.form.isTypeOnly && skipTypeOnly) = false := by
  have hleft := (left_lt_of_quotedSpecifier? (s.quotedSpecifier?_text more)).2
  rw [staticHits, statements_of_some (statement?_text_append h more)]
  apply mem_listed_cons_iff
  apply not_mem_listed
  intro found hm
  exact Nat.lt_trans (left_lt_of_mem_statements_below hm) hleft

theorem quotedSpecifier?_of_call {s : Statement} {name : List Char}
    (h : s.form.callee? = some name) (more : List Char) :
    quotedSpecifier? ((s.text ++ more).dropWhile isClauseChar) = none := by
  obtain ⟨before, hl, -⟩ := Form.lead_call h
  have hbracket : '(' ∈ s.form.lead := by simp [hl]
  rw [text_append, List.dropWhile_append]
  cases hd : s.form.lead.dropWhile isClauseChar with
  | nil =>
    have hclause := List.dropWhile_eq_nil_iff.mp hd '(' hbracket
    exact absurd hclause (by decide)
  | cons c t =>
    have hc : c ∈ s.form.lead := (List.dropWhile_sublist _).subset (hd ▸ List.mem_cons_self ..)
    rw [if_neg (by simp), List.cons_append]
    apply quotedSpecifier?_cons_of_not_isQuote
    cases hquote : isQuote c with
    | false => rfl
    | true =>
      simp only [isQuote, Bool.or_eq_true, beq_iff_eq] at hquote
      rcases hquote with rfl | rfl
      · exact absurd hc (s.form.not_mem_lead (by decide) (by decide))
      · exact absurd hc (s.form.not_mem_lead (by decide) (by decide))

end Statement

end WorkspaceCycles.Source
