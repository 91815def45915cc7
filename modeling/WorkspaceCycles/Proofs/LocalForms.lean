import WorkspaceCycles.Proofs.ClauseGaps
import WorkspaceCycles.Proofs.PrintedClauses

namespace WorkspaceCycles.Source

inductive LocalForm where
  | names (bindings : List Binding)
  | types (bindings : List Binding)
  | default (name : Identifier)

namespace LocalForm

def clause : LocalForm → List Char
  | .names bindings => ' ' :: bindingsText bindings
  | .types bindings => " type ".toList ++ bindingsText bindings
  | .default name => " default ".toList ++ name.text

def isTypeOnly : LocalForm → Bool
  | .types _ => true
  | _ => false

theorem clause_names (bindings : List Binding) :
    (names bindings).clause = ' ' :: bindingsText bindings := rfl

theorem clause_types (bindings : List Binding) :
    (types bindings).clause = " type ".toList ++ bindingsText bindings := rfl

theorem clause_default (name : Identifier) :
    (default name).clause = " default ".toList ++ name.text := rfl

theorem clause_chars (f : LocalForm) : ∀ c ∈ f.clause, isPrintedChar c := by
  have hspace : ∀ c ∈ [' '], isPrintedChar c := List.all_eq_true.mp (by decide)
  have htype : ∀ c ∈ " type ".toList, isPrintedChar c := List.all_eq_true.mp (by decide)
  have hdefault : ∀ c ∈ " default ".toList, isPrintedChar c := List.all_eq_true.mp (by decide)
  cases f with
  | names bindings => exact List.forall_mem_append.mpr ⟨hspace, bindingsText_chars bindings⟩
  | types bindings => exact List.forall_mem_append.mpr ⟨htype, bindingsText_chars bindings⟩
  | default name => exact List.forall_mem_append.mpr ⟨hdefault, name.isPrintedChar⟩

theorem exists_clause_eq (f : LocalForm) :
    ∃ c s, f.clause = ' ' :: c :: s ∧ Text.isBlank c = false := by
  have htype : " type ".toList = ' ' :: 't' :: "ype ".toList := by decide
  have hdefault : " default ".toList = ' ' :: 'd' :: "efault ".toList := by decide
  cases f with
  | names bindings =>
    obtain ⟨s, hs⟩ := bindingsText_eq_cons bindings
    exact ⟨'\x7b', s, by rw [clause_names, hs], by decide⟩
  | types bindings =>
    refine ⟨'t', "ype ".toList ++ bindingsText bindings, ?_, by decide⟩
    rw [clause_types, htype, List.cons_append, List.cons_append]
  | default name =>
    refine ⟨'d', "efault ".toList ++ name.text, ?_, by decide⟩
    rw [clause_default, hdefault, List.cons_append, List.cons_append]

def line (f : LocalForm) : List Char :=
  f.clause ++ ['\n']

theorem line_append (f : LocalForm) (s : List Char) : f.line ++ s = f.clause ++ '\n' :: s := by
  simp [line]

theorem getLast?_line (f : LocalForm) : f.line.getLast?.any Text.isBlank := by
  rw [line, List.getLast?_concat]
  rfl

theorem head?_line (f : LocalForm) : f.line.head?.any Text.isBlank := by
  obtain ⟨c, s, hs, -⟩ := f.exists_clause_eq
  rw [line, hs]
  rfl

theorem line_ne_blank (f : LocalForm) : ¬ ∀ c ∈ f.line, Text.isBlank c := by
  obtain ⟨c, s, hs, hc⟩ := f.exists_clause_eq
  intro h
  have hb := h c (by simp [line, hs])
  rw [hc] at hb
  cases hb

theorem getLast?_bindingsText (bindings : List Binding) :
    (bindingsText bindings).getLast? = some '\x7d' := by
  cases bindings with
  | nil => rfl
  | cons b bs =>
    have hend : " \x7d".toList = [' '] ++ ['\x7d'] := by decide
    rw [bindingsText, hend, ← List.append_assoc, List.getLast?_concat]

theorem line_types_eq (bindings : List Binding) :
    (types bindings).line = ' ' :: ("type".toList ++ (names bindings).line) := by
  have htype : " type ".toList = ' ' :: ("type".toList ++ [' ']) := by decide
  rw [line, line, clause_types, clause_names, htype]
  simp only [List.cons_append, List.append_assoc, List.nil_append]

theorem line_names_ne_append_from (bindings : List Binding) (before clause blanks : List Char)
    (hb : ∀ c ∈ blanks, Text.isBlank c) :
    before ++ (names bindings).line ≠ clause ++ ("from".toList ++ blanks) := by
  obtain ⟨s, hs⟩ := List.getLast?_eq_some_iff.mp (getLast?_bindingsText bindings)
  have hbrace : (before ++ (names bindings).line).reverse.dropWhile Text.isBlank =
      '\x7d' :: (before ++ ' ' :: s).reverse := by
    have hr : (before ++ (names bindings).line).reverse =
        '\n' :: '\x7d' :: (before ++ ' ' :: s).reverse := by
      simp [line, clause_names, hs]
    rw [hr]
    rfl
  have hword : (clause ++ ("from".toList ++ blanks)).reverse.dropWhile Text.isBlank =
      'm' :: (clause ++ "fro".toList).reverse := by
    have hr : (clause ++ ("from".toList ++ blanks)).reverse =
        blanks.reverse ++ 'm' :: (clause ++ "fro".toList).reverse := by simp
    rw [hr, List.dropWhile_append_of_pos fun c hc => hb c (List.mem_reverse.mp hc)]
    rfl
  intro h
  rw [h, hword] at hbrace
  exact absurd (List.cons.inj hbrace).1 (by decide)

theorem isGap_names_append (bindings : List Binding) (s : List Char) :
    IsGap ((types bindings).line ++ s) ↔ IsGap ((names bindings).line ++ s) := by
  rw [isGap_append_iff_of_ne_blank (getLast?_line _) (head?_line _) (line_ne_blank _),
    isGap_append_iff_of_ne_blank (getLast?_line _) (head?_line _) (line_ne_blank _)]
  · right
    exact line_names_ne_append_from bindings []
  · right
    rw [line_types_eq]
    exact line_names_ne_append_from bindings (' ' :: "type".toList)

theorem typeOnly?_line_append (f : LocalForm) (s : List Char) :
    typeOnly? (f.line ++ s) = if isGap (f.line ++ s) then some f.isTypeOnly else none := by
  cases f with
  | names bindings =>
    obtain ⟨r, hr⟩ := bindingsText_eq_cons bindings
    have hl : (names bindings).line ++ s = ' ' :: '\x7b' :: (r ++ '\n' :: s) := by
      simp [line, clause_names, hr]
    rw [hl, typeOnly?_space]
    rfl
  | types bindings =>
    have hl : (types bindings).line ++ s =
        ' ' :: ("type".toList ++ ((names bindings).line ++ s)) := by
      rw [line_types_eq, List.cons_append, List.append_assoc]
    have htrim : Text.trimStart ("type".toList ++ ((names bindings).line ++ s)) =
        "type".toList ++ ((names bindings).line ++ s) := rfl
    rw [hl, typeOnly?_space, htrim, Text.dropLead?_append, Option.any_some, ← hl]
    have hgap : isGap ((types bindings).line ++ s) = isGap ((names bindings).line ++ s) := by
      rw [Bool.eq_iff_iff, isGap_iff, isGap_iff]
      exact isGap_names_append bindings s
    rw [hgap]
    split <;> simp_all [isTypeOnly]
  | default name =>
    have hdefault : " default ".toList = ' ' :: 'd' :: "efault ".toList := by decide
    have hl : (default name).line ++ s =
        ' ' :: 'd' :: ("efault ".toList ++ name.text ++ '\n' :: s) := by
      rw [line_append, clause_default, hdefault, List.cons_append, List.cons_append]
      rfl
    rw [hl, typeOnly?_space]
    rfl

end LocalForm

end WorkspaceCycles.Source
