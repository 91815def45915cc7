import WorkspaceCycles.Proofs.LeadingStatements
import WorkspaceCycles.Proofs.LocalForms

/-!
Exports of names that are declared in the same source. One that ends with a semicolon changes
nothing in what follows. One that does not may take the next specifier for its own; the specifier
is then listed if types alone are exported or not, whatever its own statement says.
-/

namespace WorkspaceCycles.Source

structure LocalExport where
  form : LocalForm
  closed : Bool

namespace LocalExport

def text (e : LocalExport) : List Char :=
  "export".toList ++ e.form.clause ++ if e.closed then [';'] else []

theorem text_eq (e : LocalExport) :
    e.text = "export".toList ++ e.form.clause ++ if e.closed then [';'] else [] := rfl

theorem text_of_open {e : LocalExport} (h : e.closed = false) (s : List Char) :
    e.text ++ '\n' :: s = "export".toList ++ (e.form.line ++ s) := by
  simp [text_eq, h, LocalForm.line]

theorem text_of_closed {e : LocalExport} (h : e.closed) (s : List Char) :
    e.text ++ '\n' :: s = "export".toList ++ (e.form.clause ++ ';' :: '\n' :: s) := by
  simp [text_eq, h]

theorem not_mem_text {c : Char} (hc : isPrintedChar c = false) (hs : c ≠ ';') (e : LocalExport) :
    c ∉ e.text := by
  have hkeyword : ∀ c ∈ "export".toList, isPrintedChar c := List.all_eq_true.mp (by decide)
  intro hm
  rw [text_eq, List.mem_append, List.mem_append] at hm
  rcases hm with (hm | hm) | hm
  · have hp := hkeyword c hm
    rw [hc] at hp
    cases hp
  · have hp := e.form.clause_chars c hm
    rw [hc] at hp
    cases hp
  · split at hm
    · exact hs (List.mem_singleton.mp hm)
    · cases hm

theorem text_eq_cons (e : LocalExport) : ∃ s, e.text = 'e' :: s :=
  ⟨"xport".toList ++ e.form.clause ++ if e.closed then [';'] else [], rfl⟩

theorem dropComments_text_append (e : LocalExport) (s : List Char) :
    dropComments (e.text ++ '\n' :: s) = e.text ++ '\n' :: dropComments s := by
  obtain ⟨r, hr⟩ := e.text_eq_cons
  have hnewline : '\n' ∉ 'e' :: r := hr ▸ e.not_mem_text (by decide) (by decide)
  rw [dropComments, dropBlockComments_append (e.not_mem_text (by decide) (by decide)),
    dropBlockComments_cons (by decide), hr,
    dropLineComments_line (by decide) (by decide) hnewline, dropComments]

theorem calls_text_append {name : List Char} (hname : IsCallee name) (e : LocalExport)
    (s : List Char) : calls name false (e.text ++ '\n' :: s) = calls name false s := by
  have hbracket : '(' ∉ e.text := e.not_mem_text (by decide) (by decide)
  rw [ calls_append_of_not_infix (hname.not_mem (by decide) (by decide))
    (not_infix_of_not_mem name hbracket)]
  rfl

theorem callHits_text_append (e : LocalExport) (s : List Char) (skipDynamicImports : Bool) :
    callHits (e.text ++ '\n' :: s) skipDynamicImports = callHits s skipDynamicImports := by
  rw [callHits, callHits, calls_text_append (.inl rfl), calls_text_append (.inr rfl)]

theorem trimStart_text_append (e : LocalExport) (s : List Char) :
    Text.trimStart (e.text ++ s) = e.text ++ s := by
  obtain ⟨r, hr⟩ := e.text_eq_cons
  rw [hr]
  rfl

theorem statement?_of_closed {e : LocalExport} (h : e.closed) (s : List Char) :
    statement? (e.text ++ '\n' :: s) = none := by
  have hclause : ∀ c ∈ e.form.clause, isClauseChar c :=
    fun c hc => isClauseChar_of_isPrintedChar (e.form.clause_chars c hc)
  have hend : isClauseChar ';' = false := by decide
  have hdrop : (e.form.clause ++ ';' :: '\n' :: s).dropWhile isClauseChar = ';' :: '\n' :: s := by
    rw [List.dropWhile_append_of_pos hclause]
    simp [hend]
  rw [statement?, trimStart_text_append, text_of_closed h, afterKeyword?_append (.inr rfl)]
  simp only [bind, Option.bind_some, hdrop,
    quotedSpecifier?_cons_of_not_isQuote (show isQuote ';' = false by decide), Option.bind_none,
    Option.bind_fun_none]

theorem statement?_of_open {e : LocalExport} (h : e.closed = false) (s : List Char) :
    statement? (e.text ++ '\n' :: s) =
      if isGap (e.form.line ++ s.takeWhile isClauseChar) then
        (quotedSpecifier? (s.dropWhile isClauseChar)).map fun p => ((e.form.isTypeOnly, p.1), p.2)
      else none := by
  have hline : ∀ c ∈ e.form.line, isClauseChar c := by
    refine List.forall_mem_append.mpr ⟨fun c hc => ?_, List.all_eq_true.mp (by decide)⟩
    exact isClauseChar_of_isPrintedChar (e.form.clause_chars c hc)
  rw [statement?, trimStart_text_append, text_of_open h, afterKeyword?_append (.inr rfl)]
  simp only [bind, Option.bind_some, List.takeWhile_append_of_pos hline,
    List.dropWhile_append_of_pos hline, LocalForm.typeOnly?_line_append]
  split
  · cases quotedSpecifier? (s.dropWhile isClauseChar) <;> rfl
  · rfl

def taken? (e : LocalExport) (s : List Char) : Option Hit :=
  (statement? (e.text ++ '\n' :: s)).map (·.1.2)

theorem taken?_of_closed {e : LocalExport} (h : e.closed) (s : List Char) : e.taken? s = none := by
  rw [taken?, statement?_of_closed h]
  rfl

theorem taken?_of_open {e : LocalExport} (h : e.closed = false) (s : List Char) :
    e.taken? s = if isGap (e.form.line ++ s.takeWhile isClauseChar) then
      (quotedSpecifier? (s.dropWhile isClauseChar)).map (·.1) else none := by
  rw [taken?, statement?_of_open h]
  split
  · rw [Option.map_map]
    rfl
  · rfl

theorem statements_of_taken?_eq_none {e : LocalExport} {s : List Char} (h : e.taken? s = none) :
    statements (e.text ++ '\n' :: s) = statements s := by
  have hnewline : '\n' ∉ e.text := e.not_mem_text (by decide) (by decide)
  rw [statements_of_none (Option.map_eq_none_iff.mp h), splitLine_append hnewline]
  rfl

theorem statements_of_taken?_eq_some {e : LocalExport} {s : List Char} {hit : Hit}
    (h : e.taken? s = some hit) :
    ∃ behind, statements (e.text ++ '\n' :: s) = (e.form.isTypeOnly, hit) :: behind ∧
      (∀ found ∈ behind, found.2.left < hit.left) ∧
      (statements s = behind ∨ ∃ t, statements s = (t, hit) :: behind) := by
  obtain ⟨⟨found, rest⟩, hfound, rfl⟩ := Option.map_eq_some_iff.mp h
  have hopen : e.closed = false := by
    by_contra hclosed
    rw [statement?_of_closed (by simpa using hclosed)] at hfound
    cases hfound
  have hopened := hfound
  rw [statement?_of_open hopen] at hopened
  split at hopened
  · obtain ⟨⟨hit, more⟩, hq, heq⟩ := Option.map_eq_some_iff.mp hopened
    obtain ⟨rfl, rfl⟩ := Prod.mk.inj heq
    obtain ⟨q, closing, hd, -, hquote, -⟩ := exists_of_quotedSpecifier? hq
    have hs : s = s.takeWhile isClauseChar ++ q :: (hit.specifier ++ closing :: more) := by
      rw [← hd, List.takeWhile_append_dropWhile]
    have hclause : ∀ c ∈ s.takeWhile isClauseChar, isClauseChar c := fun c => List.mem_takeWhile_imp
    have hstatements := statements_append_quote hquote (hd ▸ hq) hclause
    rw [← hs] at hstatements
    refine ⟨_, statements_of_some hfound, ?_, hstatements⟩
    intro found hm
    exact Nat.lt_trans (left_lt_of_mem_statements_below hm) (left_lt_of_quotedSpecifier? hq).2
  · cases hopened

theorem specifiers_text_append_iff (e : LocalExport) (s : List Char)
    (skipTypeOnly skipDynamicImports : Bool) :
    specifiers (e.text ++ '\n' :: s) skipTypeOnly skipDynamicImports =
        specifiers s skipTypeOnly skipDynamicImports ↔
      ∀ hit, e.taken? (dropComments s) = some hit →
        (hit ∈ staticHits (dropComments s) skipTypeOnly ↔
          (e.form.isTypeOnly && skipTypeOnly) = false) := by
  rw [specifiers_eq, specifiers_eq, dropComments_text_append, listedIn, listedIn,
    callHits_text_append]
  generalize dropComments s = s
  cases ht : e.taken? s with
  | none =>
    rw [staticHits, statements_of_taken?_eq_none ht]
    simp [staticHits]
  | some hit =>
    obtain ⟨behind, htext, hleft, hown⟩ := statements_of_taken?_eq_some ht
    have hnot : hit ∉ listed skipTypeOnly behind := not_mem_listed hleft
    simp only [Option.some.injEq, forall_eq']
    rw [staticHits, htext, listed_cons]
    rcases hown with hown | ⟨t, hown⟩
    · have hskip := inOrder_append_eq_iff hit (listed skipTypeOnly behind)
        (callHits s skipDynamicImports) (e.form.isTypeOnly && skipTypeOnly) true
      rw [if_pos rfl] at hskip
      rw [staticHits, hown, hskip]
      simp [hnot]
    · rw [staticHits, hown, mem_listed_cons_iff hnot, listed_cons, inOrder_append_eq_iff]
      cases e.form.isTypeOnly && skipTypeOnly <;> cases t && skipTypeOnly <;> decide

end LocalExport

theorem LocalForm.isGap_line_append_lead {f : Form} (h : f.isFrom) (l : LocalForm) :
    isGap (l.line ++ f.lead) = true := by
  obtain ⟨before, hbefore⟩ := Form.exists_lead_of_isFrom h
  have hfrom : " from ".toList = [' '] ++ ("from".toList ++ [' ']) := by decide
  have hlead : f.lead = before ++ [' '] ++ ("from".toList ++ [' ']) := by
    rw [hbefore, hfrom, List.append_assoc]
  have hblank : ∀ c ∈ [' '], Text.isBlank c := List.all_eq_true.mp (by decide)
  have hspaced : IsSpaced (l.line ++ (before ++ [' '])) := by
    rw [isSpaced_append_iff l.getLast?_line l.head?_line l.line_ne_blank]
    simpa using hblank
  rw [isGap_iff, hlead, ← List.append_assoc]
  exact .named hspaced (by simp) hblank

theorem LocalForm.isGap_line_append_import (l : LocalForm) :
    isGap (l.line ++ "import ".toList) = false := by
  have hne : ¬ ∀ c ∈ "import ".toList, Text.isBlank c := fun h =>
    absurd (h 'i' (by decide)) (by decide)
  rw [Bool.eq_false_iff, ne_eq, isGap_iff, isGap_append_iff_of_ne_blank l.getLast?_line l.head?_line
    l.line_ne_blank (.inl hne)]
  rintro ⟨t, blanks, h, -⟩
  have hm : 'f' ∈ "import ".toList := h ▸ by simp
  exact absurd hm (by decide)

theorem LocalExport.taken?_text_append (e : LocalExport) (s : Statement) (more : List Char) :
    e.taken? (s.text ++ more) =
      if e.closed || !s.form.isFrom then none else some (s.hitBefore more) := by
  cases hclosed : e.closed with
  | true =>
    rw [taken?_of_closed hclosed]
    rfl
  | false =>
    have hquote := s.quote.isQuote_char
    rw [taken?_of_open hclosed, Bool.false_or]
    cases hf : s.form.callee? with
    | some name =>
      have hfrom : s.form.isFrom = false := by
        by_contra h
        rw [Form.callee?_of_isFrom (by simpa using h)] at hf
        cases hf
      rw [Statement.quotedSpecifier?_of_call hf, hfrom]
      simp
    | none =>
      have hlead := Form.isClauseChar_lead hf
      rw [s.text_append, takeWhile_append_quote hquote hlead, dropWhile_append_quote hquote hlead,
        s.quotedSpecifier?_text]
      cases hfrom : s.form.isFrom with
      | true =>
        rw [LocalForm.isGap_line_append_lead hfrom]
        rfl
      | false =>
        have himport : s.form = .sideEffect := by
          cases hform : s.form <;> simp_all [Form.isFrom, Form.callee?]
        have hgap : isGap (e.form.line ++ s.form.lead) = false := by
          rw [himport]
          exact e.form.isGap_line_append_import
        rw [hgap]
        rfl

theorem LocalExport.specifiers_text_append_statement_iff (e : LocalExport) (s : Statement)
    (more : List Char) (skipTypeOnly skipDynamicImports : Bool) :
    specifiers (e.text ++ '\n' :: (s.text ++ more)) skipTypeOnly skipDynamicImports =
        specifiers (s.text ++ more) skipTypeOnly skipDynamicImports ↔
      e.closed ∨ skipTypeOnly = false ∨ s.form.isFrom = false ∨
        e.form.isTypeOnly = s.form.isTypeOnly := by
  obtain ⟨rest, hrest⟩ := s.exists_dropComments_text_append more
  rw [e.specifiers_text_append_iff, hrest, e.taken?_text_append]
  cases hclosed : e.closed with
  | true => simp
  | false =>
    cases hfrom : s.form.isFrom with
    | false => simp
    | true =>
      have hstatic := Form.callee?_of_isFrom hfrom
      simp only [Bool.not_true, Bool.or_false, Bool.false_eq_true, if_false, Option.some.injEq,
        forall_eq', Statement.mem_staticHits_text_append hstatic, false_or]
      cases skipTypeOnly <;> cases s.form.isTypeOnly <;> cases e.form.isTypeOnly <;> decide

/-- What is listed of a text stays as it is below an export of names if the export is closed, or if
the specifier that it takes is listed exactly if the export is not left out. It takes one from every
statement with the word `from`, so there both must be of types alone or neither. -/
theorem local_export_isolated_iff (e : LocalExport) (skipTypeOnly skipDynamicImports : Bool) :
    (∀ s : List Char,
      specifiers (e.text ++ '\n' :: s) skipTypeOnly skipDynamicImports =
          specifiers s skipTypeOnly skipDynamicImports ↔
        e.closed ∨ ∀ hit ∈ e.taken? (dropComments s),
          (hit ∈ staticHits (dropComments s) skipTypeOnly ↔
            (e.form.isTypeOnly && skipTypeOnly) = false)) ∧
    ∀ (s : Statement) (more : List Char),
      specifiers (e.text ++ '\n' :: (s.text ++ more)) skipTypeOnly skipDynamicImports =
          specifiers (s.text ++ more) skipTypeOnly skipDynamicImports ↔
        e.closed ∨ skipTypeOnly = false ∨ s.form.isFrom = false ∨
          e.form.isTypeOnly = s.form.isTypeOnly := by
  refine ⟨fun s => ?_, fun s more => e.specifiers_text_append_statement_iff s more _ _⟩
  rw [e.specifiers_text_append_iff]
  cases hclosed : e.closed with
  | true => simp [LocalExport.taken?_of_closed hclosed]
  | false => simp

theorem local_export_not_isolated :
    (specifiers "export type \x7b A \x7d\nimport \x7b b \x7d from './b'\n".toList true true = [] ∧
      specifiers "import \x7b b \x7d from './b'\n".toList true true = ["./b"]) ∧
    specifiers "export \x7b a \x7d\nimport type \x7b T \x7d from './t'\n".toList true true =
        ["./t"] ∧
      specifiers "import type \x7b T \x7d from './t'\n".toList true true = [] := by
  decide +kernel

end WorkspaceCycles.Source
