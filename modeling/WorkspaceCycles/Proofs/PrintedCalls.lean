import WorkspaceCycles.Proofs.PrintedStatements

namespace WorkspaceCycles.Source

theorem calls_nil (name : List Char) (inWord : Bool) : calls name inWord [] = [] := by
  rw [calls]

theorem calls_cons {name : List Char} {c : Char} {rest : List Char}
    (h : ∀ body, c :: rest = name ++ ['('] ++ body → argument? body = none) (inWord : Bool) :
    calls name inWord (c :: rest) = calls name (Text.isWord c) rest := by
  rw [calls]
  split
  · rename_i body hb
    have hbody : argument? body = none := by
      split at hb
      · cases hb
      · exact h body (Text.eq_append_of_dropLead? hb)
    split
    · rename_i ha
      rw [hbody] at ha
      cases ha
    · rfl
  · rfl

theorem calls_append_call {name body more : List Char} {hit : Hit}
    (ha : argument? body = some (hit, more)) :
    calls name false (name ++ ['('] ++ body) = hit :: calls name false more := by
  obtain ⟨c, rest, hc⟩ : ∃ c rest, name ++ ['('] ++ body = c :: rest :=
    List.exists_cons_of_ne_nil (by simp)
  have hd : Text.dropLead? (name ++ ['(']) (c :: rest) = some body := by
    rw [← hc, Text.dropLead?_append]
  rw [hc, calls]
  split
  · rename_i body' hb
    have hbody : body' = body := by
      simpa [hd] using hb.symm
    subst hbody
    split
    · rename_i ha'
      rw [ha] at ha'
      cases ha'
      rfl
    · rename_i ha'
      rw [ha] at ha'
      cases ha'
  · rename_i hb
    simp [hd] at hb

theorem calls_append {name s : List Char} {c : Char} (hc : c ∉ name ++ ['(']) {more : List Char}
    (h : ∀ body, name ++ ['('] ++ body <:+ s → argument? (body ++ c :: more) = none)
    (inWord : Bool) :
    calls name inWord (s ++ c :: more) = calls name (Text.isWord c) more := by
  -- a name that begins in `s` has its bracket there: it cannot reach over `c`
  have hfirst : ∀ (s body : List Char), s ++ c :: more = name ++ ['('] ++ body →
      ∃ t, s = name ++ ['('] ++ t ∧ body = t ++ c :: more := by
    intro s body he
    rcases List.append_eq_append_iff.mp he with ⟨t, ht, hbody⟩ | ⟨t, ht, hbody⟩
    · cases t with
      | nil => exact ⟨[], by simpa using ht.symm, by simpa using hbody.symm⟩
      | cons a t =>
        obtain rfl := (List.cons.inj hbody).1
        exact absurd (ht ▸ List.mem_append_right s (List.mem_cons_self ..)) hc
    · exact ⟨t, ht, hbody⟩
  induction s generalizing inWord with
  | nil =>
    apply calls_cons
    intro body he
    obtain ⟨t, ht, -⟩ := hfirst [] body he
    simp at ht
  | cons a s ih =>
    have htail : ∀ body, name ++ ['('] ++ body <:+ s → argument? (body ++ c :: more) = none :=
      fun body hs => h body (hs.trans (List.suffix_cons a s))
    rw [List.cons_append, calls_cons, ih htail]
    intro body he
    obtain ⟨t, ht, rfl⟩ := hfirst (a :: s) body he
    exact h t (ht ▸ List.suffix_rfl)

theorem calls_eq_nil {name s : List Char}
    (h : ∀ body, name ++ ['('] ++ body <:+ s → argument? body = none) (inWord : Bool) :
    calls name inWord s = [] := by
  induction s generalizing inWord with
  | nil => rw [calls_nil]
  | cons a s ih =>
    rw [calls_cons fun body he => h body (he ▸ List.suffix_rfl)]
    exact ih (fun body hs => h body (hs.trans (List.suffix_cons a s))) _

theorem calls_append_of_not_infix {name s : List Char} {c : Char} (hc : c ∉ name ++ ['('])
    (h : ¬ name ++ ['('] <:+: s) (more : List Char) (inWord : Bool) :
    calls name inWord (s ++ c :: more) = calls name (Text.isWord c) more := by
  apply calls_append hc
  intro body hs
  exact absurd ((List.prefix_append _ body).isInfix.trans hs.isInfix) h

theorem quotedSpecifier?_cons_of_not_isQuote {c : Char} (h : isQuote c = false) (s : List Char) :
    quotedSpecifier? (c :: s) = none := by
  simp only [quotedSpecifier?]
  split
  · simp [h]
  · rfl

theorem quotedSpecifier?_of_newline {q : Char} {s : List Char} (h : ∀ c ∈ s, isSpecifierChar c)
    (more : List Char) : quotedSpecifier? (q :: (s ++ '\n' :: more)) = none := by
  have hn : isSpecifierChar '\n' = false := by decide
  have hdrop : (s ++ '\n' :: more).dropWhile isSpecifierChar = '\n' :: more := by
    rw [List.dropWhile_append_of_pos h]
    simp [hn]
  have hq : isQuote '\n' = false := by decide
  simp [quotedSpecifier?, hdrop, hq]

theorem argument?_eq_none {s t : List Char} {q : Char} (hq : isQuote q)
    (hs : ∀ c ∈ s, isQuote c = false) (ht : ∀ c ∈ t, isSpecifierChar c) (more : List Char) :
    argument? (s ++ q :: (t ++ '\n' :: more)) = none := by
  have hblank : Text.isBlank q = false := by
    simp only [isQuote, Bool.or_eq_true, beq_iff_eq] at hq
    rcases hq with rfl | rfl <;> decide
  have hnone : quotedSpecifier? (Text.trimStart (s ++ q :: (t ++ '\n' :: more))) = none := by
    rw [Text.trimStart, List.dropWhile_append]
    cases hd : s.dropWhile Text.isBlank with
    | nil =>
      rw [List.isEmpty_nil, if_pos rfl, List.dropWhile_cons_of_neg (by simp [hblank])]
      exact quotedSpecifier?_of_newline ht more
    | cons c u =>
      have hc : c ∈ s := (List.dropWhile_sublist _).subset (hd ▸ List.mem_cons_self ..)
      exact quotedSpecifier?_cons_of_not_isQuote (hs c hc) _
  rw [argument?, hnone]
  rfl

theorem suffix_of_bracket {before name body : List Char} {s : Statement}
    (he : before ++ (name ++ ['('] ++ body) =
      s.specifier.text ++ s.quote.char :: (s.form.trail ++ [';'])) :
    ∃ t, t <:+ s.specifier.text ∧ body = t ++ s.quote.char :: (s.form.trail ++ [';']) := by
  have hend : '(' ∉ s.quote.char :: (s.form.trail ++ [';']) := by
    intro hm
    simp only [List.mem_cons, List.mem_append, List.not_mem_nil, or_false] at hm
    rcases hm with hm | hm | hm
    · exact Quote.char_ne (by decide) hm.symm
    · exact absurd (s.form.trail_chars _ hm) (by decide)
    · exact absurd hm (by decide)
  rw [← List.append_assoc] at he
  -- the bracket is the last character of what stands before `body`
  rcases List.append_eq_append_iff.mp he with ⟨t, ht, rfl⟩ | ⟨t, ht, hbody⟩
  · exact ⟨t, ⟨_, ht.symm⟩, rfl⟩
  · rcases List.eq_nil_or_concat t with rfl | ⟨u, a, rfl⟩
    · exact ⟨[], List.nil_suffix, hbody.symm⟩
    · rw [List.concat_eq_append, ← List.append_assoc, ← List.append_assoc] at ht
      obtain rfl : '(' = a := by simpa using (List.append_inj' ht rfl).2
      exact absurd (hbody ▸ by simp) hend

theorem not_infix_of_not_mem (name : List Char) {s : List Char} (h : '(' ∉ s) :
    ¬ name ++ ['('] <:+: s :=
  fun hi => h (hi.subset (by simp))

theorem bracket_not_mem {before : List Char} (h : ∀ c ∈ before, isCallChar c) :
    '(' ∉ "const ".toList ++ before := by
  intro hm
  rcases List.mem_append.mp hm with hm | hm
  · exact absurd hm (by decide)
  · exact absurd (h _ hm) (by decide)

theorem argument?_rest {s : Statement} (h : s.form.callee? ≠ none) (more : List Char) :
    argument? (s.quote.char :: s.rest more) = some (s.hit more, ';' :: '\n' :: more) := by
  have htrail : s.form.trail = [')'] := by
    rw [Form.trail, if_pos (Option.isSome_iff_ne_none.mpr h)]
  have hblank : Text.trimStart (s.quote.char :: s.rest more) = s.quote.char :: s.rest more := by
    cases s.quote <;> rfl
  rw [argument?, hblank, quotedSpecifier?_rest, htrail]
  rfl

def IsCallee (name : List Char) : Prop :=
  name = "require".toList ∨ name = "import".toList

section Line

variable {name : List Char} (hname : IsCallee name)

include hname

theorem IsCallee.not_mem {c : Char} (hi : isIdentifierChar c = false) (hc : c ≠ '(') :
    c ∉ name ++ ['('] := by
  have hchars : ∀ x ∈ name, isIdentifierChar x := by
    rcases hname with rfl | rfl
    · exact List.all_eq_true.mp (by decide)
    · exact List.all_eq_true.mp (by decide)
  intro hm
  rcases List.mem_append.mp hm with hm | hm
  · have hn := hchars c hm
    rw [hi] at hn
    cases hn
  · exact hc (List.mem_singleton.mp hm)

theorem IsCallee.quote_not_mem (q : Quote) : q.char ∉ name ++ ['('] := by
  cases q with
  | single => exact hname.not_mem (by decide) (by decide)
  | double => exact hname.not_mem (by decide) (by decide)

theorem calls_rest (s : Statement) (more : List Char) :
    calls name false (s.rest more) = calls name false more := by
  rw [s.rest_eq]
  apply calls_append (hname.not_mem (by decide) (by decide))
  rintro body ⟨before, he⟩
  obtain ⟨t, ht, rfl⟩ := suffix_of_bracket he
  have hquotes : ∀ c ∈ t, isQuote c = false := by
    intro c hc
    have hs := s.specifier.chars c (ht.subset hc)
    simp only [isSpecifierChar, Bool.and_eq_true, Bool.not_eq_true'] at hs
    exact hs.1
  have hend : ∀ c ∈ s.form.trail ++ [';'], isSpecifierChar c := by
    intro c hc
    rcases List.mem_append.mp hc with hc | hc
    · rw [s.form.trail_chars c hc]
      decide
    · rw [List.mem_singleton.mp hc]
      decide
  rw [List.append_assoc, List.cons_append]
  exact argument?_eq_none s.quote.isQuote_char hquotes hend more

theorem not_infix_lead {f : Form} (h : f.callee? ≠ some name) : ¬ name ++ ['('] <:+: f.lead := by
  cases hf : f.callee? with
  | none =>
    obtain ⟨keyword, clause, hk, hl, hs, -⟩ := Form.lead_static hf
    rw [hl]
    apply not_infix_of_not_mem
    intro hm
    rcases List.mem_append.mp hm with hm | hm
    · rcases hk with rfl | rfl <;> exact absurd hm (by decide)
    · exact absurd (hs _ hm) (by decide)
  | some other =>
    obtain ⟨before, hl, hb⟩ := Form.lead_call hf
    have hother := Form.callee?_eq_some hf
    have hlead : f.lead = "const ".toList ++ before ++ ' ' :: other ++ ['('] := by
      simp only [hl, List.append_assoc, List.cons_append]
    rw [hlead, List.infix_concat_iff]
    rintro (⟨t, ht⟩ | hi)
    · -- the two names differ in their last letters
      rw [← List.append_assoc] at ht
      have hlast := congrArg List.getLast? (List.append_inj' ht rfl).1
      rcases hname with rfl | rfl <;> rcases hother with rfl | rfl
      · exact h hf
      · simp [List.getLast?_cons] at hlast
      · simp [List.getLast?_cons] at hlast
      · exact h hf
    · refine not_infix_of_not_mem name ?_ hi
      intro hm
      rcases List.mem_append.mp hm with hm | hm
      · exact bracket_not_mem hb hm
      · rcases hother with rfl | rfl <;> exact absurd hm (by decide)

theorem calls_line_of_ne {s : Statement} (h : s.form.callee? ≠ some name) (more : List Char) :
    calls name false (s.line ++ '\n' :: more) = calls name false more := by
  have hq : Text.isWord s.quote.char = false := by
    cases s.quote <;> decide
  rw [s.line_append, calls_append_of_not_infix (hname.quote_not_mem _) (not_infix_lead hname h), hq,
    calls_rest hname]

theorem calls_line_of_eq {s : Statement} (h : s.form.callee? = some name) (more : List Char) :
    calls name false (s.line ++ '\n' :: more) = s.hit more :: calls name false more := by
  obtain ⟨before, hl, hb⟩ := Form.lead_call h
  have hbefore := not_infix_of_not_mem name (bracket_not_mem hb)
  have hspace : Text.isWord ' ' = false := by decide
  have hend : calls name false (';' :: '\n' :: more) = calls name false more :=
    calls_append_of_not_infix (hname.not_mem (by decide) (by decide))
      (not_infix_of_not_mem name (show '(' ∉ [';'] by decide)) more false
  rw [s.line_append, hl, List.append_assoc, List.cons_append,
    calls_append_of_not_infix (hname.not_mem (by decide) (by decide)) hbefore, hspace,
    calls_append_call (argument?_rest (by simp [h]) more), hend]

end Line

theorem calls_print {name : List Char} (hname : IsCallee name) (ss : List Statement) :
    calls name false (print ss) =
      ((printedHits ss).filter (·.1.callee? == some name)).map (·.2) := by
  induction ss with
  | nil => rw [print, calls_nil]; rfl
  | cons s ss ih =>
    rw [print_cons, printedHits]
    by_cases h : s.form.callee? = some name
    · rw [calls_line_of_eq hname h, ih]
      simp [h]
    · rw [calls_line_of_ne hname h, ih]
      simp [h]

end WorkspaceCycles.Source
