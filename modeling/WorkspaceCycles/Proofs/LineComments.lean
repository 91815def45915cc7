import WorkspaceCycles.Proofs.LongerTexts

namespace WorkspaceCycles.Source

theorem startsLineComment_append {more : List Char} (h : ∀ c ∈ more.head?, c ≠ '/')
    (line : List Char) : startsLineComment (line ++ more) = startsLineComment line := by
  match line with
  | [] =>
    cases more with
    | nil => rfl
    | cons c more =>
      have hc : c ≠ '/' := h c rfl
      simp [startsLineComment, hc]
  | [c] =>
    cases more with
    | nil => rfl
    | cons d more =>
      have hd : d ≠ '/' := h d rfl
      simp [startsLineComment, hd]
  | c :: d :: line => by_cases hc : c = '/' <;> by_cases hd : d = '/' <;>
      simp [startsLineComment, hc, hd]

theorem startsLineComment_append_newline (line more : List Char) :
    startsLineComment (line ++ '\n' :: more) = startsLineComment line :=
  startsLineComment_append (by simp) line

section LastLine

def belowLine (q : List Char) : List Char :=
  (splitLine q).2.elim [] ('\n' :: dropLineComments ·)

theorem belowLine_newline_cons (more : List Char) :
    belowLine ('\n' :: more) = '\n' :: dropLineComments more := by
  rw [belowLine, splitLine_newline_cons]
  rfl

theorem head?_belowLine (q : List Char) : ∀ c ∈ (belowLine q).head?, c = '\n' := by
  unfold belowLine
  cases (splitLine q).2 with
  | none => simp
  | some more => simp

variable {q : List Char} (hq : ∀ c ∈ q.head?, c = '\n')

include hq

theorem splitLine_append_end {line : List Char} (h : '\n' ∉ line) :
    splitLine (line ++ q) = (line, (splitLine q).2) := by
  refine Prod.ext ?_ (snd_splitLine_append h q)
  rcases exists_eq_newline_cons hq with rfl | ⟨more, rfl⟩
  · rw [List.append_nil]
    exact List.takeWhile_eq_self_iff.mpr (notNewline_of_mem h)
  · rw [splitLine_append h]

theorem dropLineComments_append_end {l : List Char} (hl : ¬ ∀ c ∈ l, Text.isBlank c)
    (hn : '\n' ∉ Text.trimStart l) : dropLineComments (l ++ q) =
      (if startsLineComment (Text.trimStart l) then [] else l) ++ belowLine q := by
  have hslash : ∀ c ∈ q.head?, c ≠ '/' := by
    intro c hc
    rw [hq c hc]
    decide
  simp only [not_forall, Bool.not_eq_true] at hl
  obtain ⟨c, hc, hp⟩ := hl
  rw [Text.trimStart] at hn ⊢
  rw [dropLineComments_eq, takeWhile_append_of_mem hc hp, dropWhile_append_of_mem hc hp,
    splitLine_append_end hq hn, startsLineComment_append hslash, List.takeWhile_append_dropWhile]
  rfl

end LastLine

section Marks

variable {t q : List Char}

theorem comment_eq (t q : List Char) :
    " // ".toList ++ t ++ q = " //".toList ++ ' ' :: (t ++ q) := by
  have hsplit : " // ".toList = " //".toList ++ [' '] := by decide
  rw [hsplit, List.append_assoc, List.append_assoc]
  rfl

theorem startsLineComment_mark_iff (l : List Char) :
    startsLineComment (Text.trimStart (l ++ " //".toList)) ↔
      (∀ c ∈ l, Text.isBlank c) ∨ startsLineComment (Text.trimStart l) := by
  rw [Text.trimStart, Text.trimStart]
  by_cases hl : ∀ c ∈ l, Text.isBlank c
  · rw [List.dropWhile_append_of_pos hl]
    exact ⟨fun _ => .inl hl, fun _ => rfl⟩
  · have hspace : ∀ c ∈ " //".toList.head?, c ≠ '/' := by
      intro c hc
      obtain rfl := Option.some.inj hc
      decide
    have hcode := hl
    simp only [not_forall, Bool.not_eq_true] at hcode
    obtain ⟨c, hc, hp⟩ := hcode
    rw [dropWhile_append_of_mem hc hp, startsLineComment_append hspace, or_iff_right hl]

theorem dropLineComments_comment {l : List Char} (hn : '\n' ∉ Text.trimStart l) (ht : '\n' ∉ t)
    (hq : ∀ c ∈ q.head?, c = '\n') : dropLineComments (l ++ (" // ".toList ++ t ++ q)) =
      (if startsLineComment (Text.trimStart (l ++ " //".toList)) then []
        else l ++ (" // ".toList ++ t)) ++ belowLine q := by
  have hmark : '/' ∈ l ++ " //".toList := List.mem_append_right l (by decide)
  have hslash : Text.isBlank '/' = false := by decide
  have hsplit : l ++ (" // ".toList ++ t) = l ++ " //".toList ++ ' ' :: t := by
    have hcomment := comment_eq t []
    rw [List.append_nil, List.append_nil] at hcomment
    rw [hcomment, List.append_assoc]
  have htrim : Text.trimStart (l ++ (" // ".toList ++ t)) =
      Text.trimStart (l ++ " //".toList) ++ ' ' :: t := by
    rw [hsplit]
    exact dropWhile_append_of_mem hmark hslash _
  have hline : '\n' ∉ Text.trimStart (l ++ " //".toList) := by
    rw [Text.trimStart, List.dropWhile_append]
    split
    · decide
    · rw [List.mem_append, not_or]
      exact ⟨hn, by decide⟩
  have hl : ¬ ∀ c ∈ l ++ (" // ".toList ++ t), Text.isBlank c := by
    intro hall
    rw [hsplit] at hall
    exact absurd (hall '/' (List.mem_append_left _ hmark)) (by decide)
  have hend : '\n' ∉ Text.trimStart (l ++ (" // ".toList ++ t)) := by
    rw [htrim, List.mem_append, List.mem_cons, not_or, not_or]
    exact ⟨hline, by decide, ht⟩
  rw [← List.append_assoc, dropLineComments_append_end hq hl hend, htrim,
    startsLineComment_append (by simp)]

end Marks

section Blanks

theorem exists_dropLineComments_append {s : List Char} (h : EndsLine s) :
    ∃ u b, EndsLine u ∧ EndsLine b ∧ (∀ c ∈ b, Text.isBlank c) ∧
      ∀ more, dropLineComments (s ++ more) = u ++ dropLineComments (b ++ more) := by
  induction hn : s.length using Nat.strongRecOn generalizing s with
  | ind n ih =>
    subst hn
    by_cases hall : ∀ c ∈ s, Text.isBlank c
    · exact ⟨[], s, by simp [EndsLine], h, hall, fun more => rfl⟩
    · have hsuffix := List.dropWhile_suffix Text.isBlank (l := s)
      obtain ⟨line, below, hs, hline, hbelow⟩ :=
        (h.of_suffix hsuffix).exists_line (hall ∘ List.dropWhile_eq_nil_iff.mp)
      have hlt : below.length < s.length := by
        have hle := hsuffix.length_le
        rw [hs] at hle
        simp only [List.length_append, List.length_cons] at hle
        omega
      obtain ⟨u, b, hu, hb, hblank, heq⟩ :=
        ih below.length hlt (h.of_suffix (hbelow.trans hsuffix)) rfl
      simp only [not_forall, Bool.not_eq_true] at hall
      obtain ⟨c, hc, hp⟩ := hall
      refine ⟨(if startsLineComment line then [] else s.takeWhile Text.isBlank ++ line) ++
        '\n' :: u, b, ?_, hb, hblank, fun more => ?_⟩
      · intro c hc
        rw [List.getLast?_append, List.getLast?_cons] at hc
        cases hlast : u.getLast? with
        | none =>
          rw [hlast] at hc
          exact (Option.some.inj hc).symm
        | some d =>
          rw [hlast] at hc
          exact hu c (hlast.trans hc)
      · rw [dropLineComments_eq, takeWhile_append_of_mem hc hp, dropWhile_append_of_mem hc hp, hs,
          List.append_assoc, List.cons_append, splitLine_append hline,
          startsLineComment_append_newline, Option.elim_some, heq, List.append_assoc,
          List.cons_append]

theorem exists_dropLineComments_last {above line : List Char} (ha : EndsLine above)
    (hn : '\n' ∉ line) : ∃ u l, EndsLine u ∧ '\n' ∉ Text.trimStart l ∧
      (∀ more, Text.trimStart (l ++ more) = Text.trimStart (line ++ more)) ∧
      ∀ more, dropLineComments (above ++ line ++ more) = u ++ dropLineComments (l ++ more) := by
  obtain ⟨u, b, hu, -, hblank, habove⟩ := exists_dropLineComments_append ha
  have htrim : ∀ s, Text.trimStart (b ++ s) = Text.trimStart s :=
    fun _ => List.dropWhile_append_of_pos hblank
  refine ⟨u, b ++ line, hu, ?_, fun more => ?_, fun more => ?_⟩
  · rw [htrim]
    exact fun hm => hn ((List.dropWhile_sublist _).subset hm)
  · rw [List.append_assoc, htrim]
  · rw [List.append_assoc, habove, List.append_assoc]

variable {b : List Char} (hb : ∀ c ∈ b, Text.isBlank c)

include hb

theorem dropLineComments_blank_append (s : List Char) : dropLineComments (b ++ s) =
    if startsLineComment (Text.trimStart s) then dropLineComments s
    else b ++ dropLineComments s := by
  rw [dropLineComments_eq (b ++ s), dropLineComments_eq s, List.dropWhile_append_of_pos hb,
    List.takeWhile_append_of_pos hb, Text.trimStart]
  split
  · rfl
  · simp only [List.append_assoc]

theorem dropLineComments_of_blank : dropLineComments b = b := by
  have hnil : dropLineComments [] = [] := by
    rw [dropLineComments_eq]
    rfl
  have hblank := dropLineComments_blank_append hb []
  rw [List.append_nil, hnil, List.append_nil] at hblank
  exact hblank

theorem dropLineComments_comment_line {line : List Char} (hs : startsLineComment line)
    (hline : '\n' ∉ line) (more : List Char) :
    dropLineComments (b ++ (line ++ '\n' :: more)) = '\n' :: dropLineComments more := by
  have hstart : (line ++ '\n' :: more).dropWhile Text.isBlank = line ++ '\n' :: more := by
    unfold startsLineComment at hs
    split at hs
    · rfl
    · cases hs
  rw [dropLineComments_eq, List.dropWhile_append_of_pos hb, hstart, splitLine_append hline,
    startsLineComment_append_newline, if_pos hs]
  rfl

end Blanks

end WorkspaceCycles.Source
