import WorkspaceCycles.Proofs.PrintedClauses

namespace WorkspaceCycles.Source

def Statement.line (s : Statement) : List Char :=
  s.form.lead ++ s.quote.char :: (s.specifier.text ++ s.quote.char :: (s.form.trail ++ [';']))

theorem Statement.rest_eq (s : Statement) (more : List Char) :
    s.rest more = s.specifier.text ++ s.quote.char :: (s.form.trail ++ [';']) ++ '\n' :: more := by
  simp [Statement.rest]

theorem Statement.line_append (s : Statement) (more : List Char) :
    s.line ++ '\n' :: more = s.form.lead ++ s.quote.char :: s.rest more := by
  simp [Statement.line, Statement.rest]

theorem print_cons (s : Statement) (ss : List Statement) :
    print (s :: ss) = s.line ++ '\n' :: print ss :=
  (s.line_append _).symm

theorem Quote.isQuote_char (q : Quote) : isQuote q.char := by
  cases q <;> decide

theorem Quote.char_ne {q : Quote} {c : Char} (h : isQuote c = false) : q.char ≠ c := by
  rintro rfl
  rw [q.isQuote_char] at h
  cases h

theorem Form.trail_chars (f : Form) : ∀ c ∈ f.trail, c = ')' := by
  intro c hc
  unfold trail at hc
  split at hc
  · simpa using hc
  · cases hc

theorem Form.lead_static {f : Form} (h : f.callee? = none) :
    ∃ keyword clause, (keyword = "import".toList ∨ keyword = "export".toList) ∧
      f.lead = keyword ++ clause ∧ (∀ c ∈ clause, isPrintedChar c) ∧
      typeOnly? clause = some f.isTypeOnly := by
  have hspace : ∀ c ∈ [' '], isPrintedChar c := List.all_eq_true.mp (by decide)
  have hfrom : ∀ c ∈ " from ".toList, isPrintedChar c := List.all_eq_true.mp (by decide)
  have htype : ∀ c ∈ " type ".toList, isPrintedChar c := List.all_eq_true.mp (by decide)
  have hclause : ∀ {s : List Char}, IsClauseText s →
      ∀ c ∈ ' ' :: s ++ " from ".toList, isPrintedChar c := fun hs =>
    List.forall_mem_append.mpr ⟨List.forall_mem_append.mpr ⟨hspace, hs.chars⟩, hfrom⟩
  have htypes : ∀ {s : List Char}, IsClauseText s →
      ∀ c ∈ " type ".toList ++ s ++ " from ".toList, isPrintedChar c := fun hs =>
    List.forall_mem_append.mpr ⟨List.forall_mem_append.mpr ⟨htype, hs.chars⟩, hfrom⟩
  cases f with
  | sideEffect =>
    exact ⟨"import".toList, [' '], .inl rfl, rfl, hspace, by decide⟩
  | imports clause =>
    have hs := clause.isClauseText
    exact ⟨"import".toList, ' ' :: clause.text ++ " from ".toList, .inl rfl, rfl, hclause hs,
      typeOnly?_clause hs⟩
  | importsTypes clause =>
    have hs := clause.isClauseText
    exact ⟨"import".toList, " type ".toList ++ clause.text ++ " from ".toList, .inl rfl, rfl,
      htypes hs, typeOnly?_type_clause hs⟩
  | exportsAll =>
    have hstar : ∀ c ∈ ['*'], isPrintedChar c := List.all_eq_true.mp (by decide)
    have hs := isClauseText_of_head hstar (by decide) (by decide)
    exact ⟨"export".toList, ' ' :: ['*'] ++ " from ".toList, .inr rfl, rfl, hclause hs,
      typeOnly?_clause hs⟩
  | exportsAllAs name =>
    have hs := (Clause.whole name).isClauseText
    exact ⟨"export".toList, ' ' :: ("* as ".toList ++ name.text) ++ " from ".toList, .inr rfl, rfl,
      hclause hs, typeOnly?_clause hs⟩
  | exports bindings =>
    have hs := isClauseText_bindingsText bindings
    exact ⟨"export".toList, ' ' :: bindingsText bindings ++ " from ".toList, .inr rfl, rfl,
      hclause hs, typeOnly?_clause hs⟩
  | exportsTypes bindings =>
    have hs := isClauseText_bindingsText bindings
    exact ⟨"export".toList, " type ".toList ++ bindingsText bindings ++ " from ".toList, .inr rfl,
      rfl, htypes hs, typeOnly?_type_clause hs⟩
  | requires name => cases h
  | awaits name => cases h

def isCallChar (c : Char) : Bool :=
  isPrintedChar c || c == '='

theorem isCallChar_of_isPrintedChar {c : Char} (h : isPrintedChar c) : isCallChar c := by
  simp [isCallChar, h]

theorem Form.lead_call {f : Form} {name : List Char} (h : f.callee? = some name) :
    ∃ before, f.lead = "const ".toList ++ before ++ ' ' :: (name ++ ['(']) ∧
      ∀ c ∈ before, isCallChar c := by
  have heq : ∀ c ∈ " =".toList, isCallChar c := List.all_eq_true.mp (by decide)
  have hawait : ∀ c ∈ " = await".toList, isCallChar c := List.all_eq_true.mp (by decide)
  have hname : ∀ i : Identifier, ∀ c ∈ i.text, isCallChar c :=
    fun i c hc => isCallChar_of_isPrintedChar (i.isPrintedChar c hc)
  cases f with
  | requires i =>
    simp only [callee?, Option.some.injEq] at h
    subst h
    have hl : (requires i).lead = "const ".toList ++ i.text ++ " = require(".toList := rfl
    have hc : " = require(".toList = " =".toList ++ ' ' :: ("require".toList ++ ['(']) := by decide
    refine ⟨i.text ++ " =".toList, by simp only [hl, hc, List.append_assoc], ?_⟩
    exact List.forall_mem_append.mpr ⟨hname i, heq⟩
  | awaits i =>
    simp only [callee?, Option.some.injEq] at h
    subst h
    have hl : (awaits i).lead = "const ".toList ++ i.text ++ " = await import(".toList := rfl
    have hc : " = await import(".toList =
        " = await".toList ++ ' ' :: ("import".toList ++ ['(']) := by decide
    refine ⟨i.text ++ " = await".toList, by simp only [hl, hc, List.append_assoc], ?_⟩
    exact List.forall_mem_append.mpr ⟨hname i, hawait⟩
  | _ => cases h

theorem Form.callee?_eq_some {f : Form} {name : List Char} (h : f.callee? = some name) :
    name = "require".toList ∨ name = "import".toList := by
  cases f with
  | requires =>
    simp only [callee?, Option.some.injEq] at h
    exact .inl h.symm
  | awaits =>
    simp only [callee?, Option.some.injEq] at h
    exact .inr h.symm
  | _ => cases h

theorem Form.lead_chars (f : Form) : ∀ c ∈ f.lead, isCallChar c ∨ c = '(' := by
  have himport : ∀ c ∈ "import".toList, isCallChar c := List.all_eq_true.mp (by decide)
  have hexport : ∀ c ∈ "export".toList, isCallChar c := List.all_eq_true.mp (by decide)
  have hrequire : ∀ c ∈ "require".toList, isCallChar c := List.all_eq_true.mp (by decide)
  have hconst : ∀ c ∈ "const ".toList, isCallChar c := List.all_eq_true.mp (by decide)
  have hspace : isCallChar ' ' := by decide
  cases hf : f.callee? with
  | none =>
    obtain ⟨keyword, clause, hk, hl, hs, -⟩ := lead_static hf
    have hkeyword : ∀ c ∈ keyword, isCallChar c := by
      rcases hk with rfl | rfl
      · exact himport
      · exact hexport
    intro c hc
    rw [hl] at hc
    left
    rcases List.mem_append.mp hc with hc | hc
    · exact hkeyword c hc
    · exact isCallChar_of_isPrintedChar (hs c hc)
  | some name =>
    obtain ⟨before, hl, hs⟩ := lead_call hf
    have hname : ∀ c ∈ name, isCallChar c := by
      rcases callee?_eq_some hf with rfl | rfl
      · exact hrequire
      · exact himport
    intro c hc
    rw [hl] at hc
    simp only [List.mem_append, List.mem_cons, List.not_mem_nil, or_false] at hc
    rcases hc with (hc | hc) | rfl | hc | hc
    · exact .inl (hconst c hc)
    · exact .inl (hs c hc)
    · exact .inl hspace
    · exact .inl (hname c hc)
    · exact .inr hc

theorem Form.not_mem_lead {c : Char} (hc : isCallChar c = false) (hb : c ≠ '(') (f : Form) :
    c ∉ f.lead := by
  intro hm
  rcases f.lead_chars c hm with h | rfl
  · rw [hc] at h
    cases h
  · exact hb rfl

theorem Statement.line_eq_cons (s : Statement) : ∃ c t, s.line = c :: t ∧ isIdentifierChar c := by
  unfold line
  cases hf : s.form.callee? with
  | none =>
    obtain ⟨keyword, clause, hk, hl, -, -⟩ := Form.lead_static hf
    rw [hl]
    rcases hk with rfl | rfl
    · exact ⟨'i', _, rfl, by decide⟩
    · exact ⟨'e', _, rfl, by decide⟩
  | some name =>
    obtain ⟨before, hl, -⟩ := Form.lead_call hf
    rw [hl]
    exact ⟨'c', _, rfl, by decide⟩

theorem Statement.newline_not_mem_line (s : Statement) : '\n' ∉ s.line := by
  intro h
  simp only [line, List.mem_append, List.mem_cons, List.not_mem_nil, or_false] at h
  rcases h with h | h | h | h | h | h
  · exact s.form.not_mem_lead (by decide) (by decide) h
  · exact Quote.char_ne (by decide) h.symm
  · exact absurd (s.specifier.chars _ h) (by decide)
  · exact Quote.char_ne (by decide) h.symm
  · exact absurd (s.form.trail_chars _ h) (by decide)
  · exact absurd h (by decide)

section Comments

theorem dropBlockComments_cons {c : Char} (hc : c ≠ '/') (s : List Char) :
    dropBlockComments (c :: s) = c :: dropBlockComments s := by
  rw [dropBlockComments]
  intro rest h
  exact absurd h hc

theorem dropBlockComments_append {s : List Char} (h : '/' ∉ s) (more : List Char) :
    dropBlockComments (s ++ more) = s ++ dropBlockComments more := by
  induction s with
  | nil => rfl
  | cons c s ih =>
    simp only [List.mem_cons, not_or] at h
    rw [List.cons_append, dropBlockComments_cons (Ne.symm h.1), ih h.2, List.cons_append]

theorem dropBlockComments_append_of_head {s more : List Char} (h : ¬ ['/', '*'] <:+: s)
    (hm : ∀ c ∈ more.head?, c ≠ '*') :
    dropBlockComments (s ++ more) = s ++ dropBlockComments more := by
  induction s with
  | nil => rfl
  | cons a s ih =>
    have htail : ¬ ['/', '*'] <:+: s := fun hs => h (List.infix_cons hs)
    rw [List.cons_append, dropBlockComments, ih htail, List.cons_append]
    rintro rest rfl he
    cases s with
    | nil => exact hm '*' (by simp [show more = '*' :: rest from he]) rfl
    | cons b s =>
      obtain rfl : b = '*' := (List.cons.inj he).1
      exact h ⟨[], s, rfl⟩

theorem dropBlockComments_append_cons {s : List Char} (h : ¬ ['/', '*'] <:+: s) {c : Char}
    (hc : c ≠ '*') (more : List Char) :
    dropBlockComments (s ++ c :: more) = s ++ dropBlockComments (c :: more) :=
  dropBlockComments_append_of_head h fun _ ha => Option.some.inj ha ▸ hc

theorem dropBlockComments_line (s : Statement) (more : List Char) :
    dropBlockComments (s.line ++ '\n' :: more) = s.line ++ '\n' :: dropBlockComments more := by
  have hq : s.quote.char ≠ '/' := Quote.char_ne (by decide)
  have hstar : s.quote.char ≠ '*' := Quote.char_ne (by decide)
  have hlead : '/' ∉ s.form.lead := s.form.not_mem_lead (by decide) (by decide)
  have htrail : '/' ∉ s.form.trail := fun h => absurd (s.form.trail_chars _ h) (by decide)
  simp only [Statement.line, List.append_assoc, List.cons_append, List.nil_append]
  rw [dropBlockComments_append hlead, dropBlockComments_cons hq,
    dropBlockComments_append_cons s.specifier.no_comment hstar, dropBlockComments_cons hq,
    dropBlockComments_append htrail, dropBlockComments_cons (by decide),
    dropBlockComments_cons (by decide)]

theorem notNewline_of_mem {line : List Char} (h : '\n' ∉ line) : ∀ c ∈ line, notNewline c := by
  intro c hc
  have hne : c ≠ '\n' := by
    rintro rfl
    exact h hc
  simpa [notNewline] using hne

theorem splitLine_append {line : List Char} (h : '\n' ∉ line) (more : List Char) :
    splitLine (line ++ '\n' :: more) = (line, some more) := by
  have hnl : notNewline '\n' = false := by decide
  unfold splitLine
  rw [List.takeWhile_append_of_pos (notNewline_of_mem h),
    List.dropWhile_append_of_pos (notNewline_of_mem h)]
  simp [hnl]

theorem splitLine_newline_cons (more : List Char) : splitLine ('\n' :: more) = ([], some more) :=
  splitLine_append List.not_mem_nil more

theorem snd_splitLine_append {line : List Char} (h : '\n' ∉ line) (s : List Char) :
    (splitLine (line ++ s)).2 = (splitLine s).2 := by
  simp only [splitLine, List.dropWhile_append_of_pos (notNewline_of_mem h)]

theorem snd_splitLine_eq_none {line : List Char} (h : '\n' ∉ line) : (splitLine line).2 = none := by
  have hline := snd_splitLine_append h []
  rwa [List.append_nil] at hline

theorem dropLineComments_line {c : Char} {line : List Char} (hb : Text.isBlank c = false)
    (hc : c ≠ '/') (hn : '\n' ∉ c :: line) (more : List Char) :
    dropLineComments (c :: line ++ '\n' :: more) = c :: line ++ '\n' :: dropLineComments more := by
  have htake : (c :: line ++ '\n' :: more).takeWhile Text.isBlank = [] := by
    simp [hb]
  have hdrop : (c :: line ++ '\n' :: more).dropWhile Text.isBlank = c :: line ++ '\n' :: more := by
    simp [hb]
  have hstart : startsLineComment (c :: line ++ '\n' :: more) = false := by
    unfold startsLineComment
    split
    · rename_i h
      exact absurd (List.cons.inj h).1 hc
    · rfl
  rw [dropLineComments_eq, htake, hdrop, hstart, splitLine_append hn]
  rfl

theorem dropBlockComments_print (ss : List Statement) :
    dropBlockComments (print ss) = print ss := by
  induction ss with
  | nil => rw [print, dropBlockComments]
  | cons s ss ih => rw [print_cons, dropBlockComments_line, ih]

theorem dropLineComments_print (ss : List Statement) :
    dropLineComments (print ss) = print ss := by
  induction ss with
  | nil => rw [print, dropLineComments_eq]; rfl
  | cons s ss ih =>
    obtain ⟨c, t, hl, hc⟩ := s.line_eq_cons
    have hslash : c ≠ '/' := by
      rintro rfl
      exact absurd hc (by decide)
    have hn := s.newline_not_mem_line
    rw [hl] at hn
    rw [print_cons, hl, dropLineComments_line (not_isBlank_of_isIdentifierChar hc) hslash hn, ih]

theorem dropComments_print (ss : List Statement) : dropComments (print ss) = print ss := by
  rw [dropComments, dropBlockComments_print, dropLineComments_print]

end Comments

def Statement.hit (s : Statement) (more : List Char) : Hit :=
  ⟨(s.rest more).length, s.specifier.text⟩

theorem isSpecifierChar_of_isQuote {c : Char} (h : isQuote c) : isSpecifierChar c = false := by
  simp [isSpecifierChar, h]

theorem quotedSpecifier?_rest (s : Statement) (more : List Char) :
    quotedSpecifier? (s.quote.char :: s.rest more) =
      some (s.hit more, s.form.trail ++ ';' :: '\n' :: more) := by
  have hend := isSpecifierChar_of_isQuote s.quote.isQuote_char
  have htake : (s.rest more).takeWhile isSpecifierChar = s.specifier.text := by
    rw [Statement.rest, List.takeWhile_append_of_pos s.specifier.chars]
    simp [hend]
  have hdrop : (s.rest more).dropWhile isSpecifierChar =
      s.quote.char :: (s.form.trail ++ ';' :: '\n' :: more) := by
    rw [Statement.rest, List.dropWhile_append_of_pos s.specifier.chars]
    simp [hend]
  simp [quotedSpecifier?, htake, hdrop, s.quote.isQuote_char, s.specifier.ne_nil, Statement.hit]

theorem isClauseChar_of_isQuote {c : Char} (h : isQuote c) : isClauseChar c = false := by
  simp only [isQuote, Bool.or_eq_true, beq_iff_eq] at h
  rcases h with rfl | rfl <;> decide

theorem afterKeyword?_append {keyword : List Char}
    (h : keyword = "import".toList ∨ keyword = "export".toList) (s : List Char) :
    afterKeyword? (keyword ++ s) = some s := by
  rcases h with rfl | rfl
  · rw [afterKeyword?, Text.dropLead?_append]
  · have himport : Text.dropLead? "import".toList ("export".toList ++ s) = none := rfl
    rw [afterKeyword?, himport, Text.dropLead?_append]

theorem trimStart_line (s : Statement) (more : List Char) :
    Text.trimStart (s.line ++ '\n' :: more) = s.line ++ '\n' :: more := by
  obtain ⟨c, t, hl, hc⟩ := s.line_eq_cons
  apply trimStart_of_head
  rw [hl]
  intro a ha
  cases ha
  exact not_isBlank_of_isIdentifierChar hc

theorem statement?_line_of_static {s : Statement} (h : s.form.callee? = none) (more : List Char) :
    statement? (s.line ++ '\n' :: more) =
      some ((s.form.isTypeOnly, s.hit more), s.form.trail ++ ';' :: '\n' :: more) := by
  obtain ⟨keyword, clause, hk, hl, hs, ht⟩ :=
    Form.lead_static h
  have hclause : ∀ c ∈ clause, isClauseChar c :=
    fun c hc => isClauseChar_of_isPrintedChar (hs c hc)
  have hquote := isClauseChar_of_isQuote s.quote.isQuote_char
  have htake : (clause ++ s.quote.char :: s.rest more).takeWhile isClauseChar = clause := by
    rw [List.takeWhile_append_of_pos hclause]
    simp [hquote]
  have hdrop : (clause ++ s.quote.char :: s.rest more).dropWhile isClauseChar =
      s.quote.char :: s.rest more := by
    rw [List.dropWhile_append_of_pos hclause]
    simp [hquote]
  rw [statement?, trimStart_line, s.line_append, hl, List.append_assoc, afterKeyword?_append hk]
  simp only [bind, Option.bind_some, htake, hdrop, ht, quotedSpecifier?_rest]
  rfl

theorem statement?_line_of_call {s : Statement} {name : List Char}
    (h : s.form.callee? = some name) (more : List Char) :
    statement? (s.line ++ '\n' :: more) = none := by
  obtain ⟨before, hl, -⟩ := Form.lead_call h
  have hkeyword : ∀ t, afterKeyword? ("const ".toList ++ t) = none := fun t => rfl
  rw [statement?, trimStart_line, s.line_append, hl, List.append_assoc, List.append_assoc, hkeyword]
  rfl

def printedHits : List Statement → List (Form × Hit)
  | [] => []
  | s :: ss => (s.form, s.hit (print ss)) :: printedHits ss

theorem statements_print (ss : List Statement) :
    statements (print ss) = ((printedHits ss).filter (·.1.callee? == none)).map
      fun found => (found.1.isTypeOnly, found.2) := by
  induction ss with
  | nil => rw [print, statements_of_none rfl]; rfl
  | cons s ss ih =>
    rw [print_cons, printedHits]
    cases h : s.form.callee? with
    | none =>
      have htrail : s.form.trail = [] := by
        rw [Form.trail, h]
        rfl
      have hend : splitLine (';' :: '\n' :: print ss) = ([';'], some (print ss)) :=
        splitLine_append (show '\n' ∉ [';'] by decide) (print ss)
      rw [statements_of_some (statement?_line_of_static h _), htrail, List.nil_append, hend]
      simp [h, ih]
    | some name =>
      rw [statements_of_none (statement?_line_of_call h _), splitLine_append s.newline_not_mem_line]
      simp [h, ih]

end WorkspaceCycles.Source
