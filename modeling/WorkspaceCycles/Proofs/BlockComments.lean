import WorkspaceCycles.Proofs.LongerTexts

namespace WorkspaceCycles.Source

/-- Every block comment that the scan from the left meets is closed in the text. -/
inductive ClosesBlocks : List Char → Prop
  | nil : ClosesBlocks []
  | comment {rest more : List Char} (h : afterClose? rest = some more) (hm : ClosesBlocks more) :
      ClosesBlocks ('/' :: '*' :: rest)
  | char {c : Char} {rest : List Char} (hc : ¬ ['/', '*'] <+: c :: rest)
      (hr : ClosesBlocks rest) : ClosesBlocks (c :: rest)

theorem ClosesBlocks.append_of_not_mem {s : List Char} (h : '/' ∉ s) {more : List Char}
    (hm : ClosesBlocks more) : ClosesBlocks (s ++ more) := by
  induction s with
  | nil => exact hm
  | cons c s ih =>
    simp only [List.mem_cons, not_or] at h
    refine .char ?_ (ih h.2)
    rintro ⟨r, hr⟩
    exact h.1 (List.cons.inj hr).1

theorem ClosesBlocks.of_not_mem {s : List Char} (h : '/' ∉ s) : ClosesBlocks s := by
  simpa using append_of_not_mem h .nil

section BlockComments

variable {c : Char} {rest more s : List Char}

theorem afterClose?_append_sep {d : Char} (hd : d ∉ ['/', '*']) (s more : List Char) :
    afterClose? (s ++ d :: more) =
      (afterClose? s).elim (afterClose? more) fun r => some (r ++ d :: more) := by
  fun_induction afterClose? s with
  | case1 =>
    rw [List.nil_append, afterClose?]
    · rfl
    · rintro r rfl -
      exact hd (by simp)
  | case2 rest => rfl
  | case3 c rest hc ih =>
    rw [List.cons_append, afterClose?, ih]
    rintro r rfl he
    cases rest with
    | nil => exact hd (by simp [(List.cons.inj he).1])
    | cons e rest =>
      obtain rfl := (List.cons.inj he).1
      exact hc rest rfl rfl

theorem afterClose?_append_close {t : List Char} (h : ¬ ['*', '/'] <:+: t) (more : List Char) :
    afterClose? (t ++ '*' :: '/' :: more) = some more := by
  induction t with
  | nil => rfl
  | cons c t ih =>
    have ht : ¬ ['*', '/'] <:+: t := fun hi => h (List.infix_cons hi)
    rw [List.cons_append, afterClose?, ih ht]
    rintro r rfl he
    cases t with
    | nil => exact absurd (List.cons.inj he).1 (by decide)
    | cons d t =>
      obtain rfl := (List.cons.inj he).1
      exact h ⟨[], t, rfl⟩

theorem exists_of_afterClose? (h : afterClose? s = some more) :
    ∃ t, s = t ++ '*' :: '/' :: more := by
  fun_induction afterClose? s with
  | case1 => cases h
  | case2 rest =>
    cases h
    exact ⟨[], rfl⟩
  | case3 c rest hc ih =>
    obtain ⟨t, rfl⟩ := ih h
    exact ⟨c :: t, rfl⟩

theorem afterClose?_of_not_infix (h : ¬ ['*', '/'] <:+: s) : afterClose? s = none := by
  cases hs : afterClose? s with
  | none => rfl
  | some more =>
    obtain ⟨t, rfl⟩ := exists_of_afterClose? hs
    exact absurd ⟨t, more, by simp⟩ h

theorem afterClose?_eq_none_of_cons (h : afterClose? (c :: s) = none) : afterClose? s = none := by
  unfold afterClose? at h
  split at h
  · rename_i he
    cases he
  · cases h
  · rename_i he
    cases he
    exact h

theorem dropBlockComments_comment (h : afterClose? rest = some more) :
    dropBlockComments ('/' :: '*' :: rest) = dropBlockComments more := by
  rw [dropBlockComments]
  split
  · rename_i m hm
    obtain rfl : more = m := Option.some.inj (h.symm.trans hm)
    rfl
  · rename_i hm
    rw [h] at hm
    cases hm

theorem dropBlockComments_unclosed (h : afterClose? rest = none) :
    dropBlockComments ('/' :: '*' :: rest) = '/' :: '*' :: rest := by
  rw [dropBlockComments]
  split
  · rename_i m hm
    rw [h] at hm
    cases hm
  · rfl

theorem dropBlockComments_char (hc : ¬ ['/', '*'] <+: c :: rest) :
    dropBlockComments (c :: rest) = c :: dropBlockComments rest := by
  rw [dropBlockComments]
  rintro r rfl rfl
  exact hc (List.prefix_append ['/', '*'] r)

theorem exists_of_opens (h : ['/', '*'] <+: c :: s) : ∃ rest, c = '/' ∧ s = '*' :: rest := by
  obtain ⟨rest, hrest⟩ := h
  obtain ⟨hc, hs⟩ := List.cons.inj hrest
  exact ⟨rest, hc.symm, hs.symm⟩

theorem dropBlockComments_eq_self (h : afterClose? s = none) : dropBlockComments s = s := by
  induction s with
  | nil => rw [dropBlockComments]
  | cons c s ih =>
    have hs := afterClose?_eq_none_of_cons h
    by_cases hc : ['/', '*'] <+: c :: s
    · obtain ⟨rest, rfl, rfl⟩ := exists_of_opens hc
      exact dropBlockComments_unclosed (afterClose?_eq_none_of_cons hs)
    · rw [dropBlockComments_char hc, ih hs]

theorem ClosesBlocks.exists_of_comment (h : ClosesBlocks ('/' :: '*' :: rest)) :
    ∃ more, afterClose? rest = some more ∧ ClosesBlocks more := by
  cases h with
  | comment h hm => exact ⟨_, h, hm⟩
  | char hc _ => exact absurd (List.prefix_append ['/', '*'] rest) hc

theorem ClosesBlocks.of_char (hc : ¬ ['/', '*'] <+: c :: rest) (h : ClosesBlocks (c :: rest)) :
    ClosesBlocks rest := by
  cases h with
  | comment h hm => exact absurd (List.prefix_append ['/', '*'] _) hc
  | char _ hr => exact hr

theorem not_opens_append_sep {d : Char} (hd : d ∉ ['/', '*']) (hc : ¬ ['/', '*'] <+: c :: s)
    (more : List Char) : ¬ ['/', '*'] <+: c :: (s ++ d :: more) := by
  rintro ⟨r, hr⟩
  cases s with
  | nil => exact hd (by simp [← (List.cons.inj (List.cons.inj hr).2).1])
  | cons e s =>
    apply hc
    obtain rfl := (List.cons.inj hr).1
    obtain rfl := (List.cons.inj (List.cons.inj hr).2).1
    exact List.prefix_append ['/', '*'] s

theorem dropBlockComments_append_sep {d : Char} (hd : d ∉ ['/', '*'])
    (h : ClosesBlocks s ∨ afterClose? more = none) :
    dropBlockComments (s ++ d :: more) = dropBlockComments s ++ d :: dropBlockComments more := by
  induction hn : s.length using Nat.strongRecOn generalizing s with
  | ind n ih =>
    subst hn
    cases s with
    | nil =>
      have hslash : d ≠ '/' := fun he => hd (by simp [he])
      rw [List.nil_append, dropBlockComments_cons hslash, dropBlockComments.eq_1]
      rfl
    | cons c s =>
      by_cases hc : ['/', '*'] <+: c :: s
      · obtain ⟨rest, rfl, rfl⟩ := exists_of_opens hc
        have hrest := afterClose?_append_sep hd rest more
        simp only [List.cons_append]
        cases ha : afterClose? rest with
        | some m =>
          rw [ha, Option.elim_some] at hrest
          rw [dropBlockComments_comment hrest, dropBlockComments_comment ha]
          have hlt := length_afterClose?_lt ha
          refine ih m.length (by simp only [List.length_cons]; omega) ?_ rfl
          refine h.imp_left fun hs => ?_
          obtain ⟨m', hm', hcloses⟩ := hs.exists_of_comment
          obtain rfl : m = m' := Option.some.inj (ha.symm.trans hm')
          exact hcloses
        | none =>
          have hmore : afterClose? more = none := by
            refine h.resolve_left fun hs => ?_
            obtain ⟨m, hm, -⟩ := hs.exists_of_comment
            rw [ha] at hm
            cases hm
          rw [ha, Option.elim_none, hmore] at hrest
          rw [dropBlockComments_unclosed hrest, dropBlockComments_unclosed ha,
            dropBlockComments_eq_self hmore]
          rfl
      · rw [List.cons_append, dropBlockComments_char (not_opens_append_sep hd hc more),
          dropBlockComments_char hc, ih s.length (by simp) (h.imp_left (.of_char hc)) rfl]
        rfl

theorem dropBlockComments_append_congr {d d' : Char} {more' r : List Char} (hd : d ∉ ['/', '*'])
    (hd' : d' ∉ ['/', '*']) (hmore : afterClose? more = some r)
    (hmore' : afterClose? more' = some r) (h : ¬ ClosesBlocks s) :
    dropBlockComments (s ++ d :: more) = dropBlockComments (s ++ d' :: more') := by
  induction hn : s.length using Nat.strongRecOn generalizing s with
  | ind n ih =>
    subst hn
    cases s with
    | nil => exact absurd .nil h
    | cons c s =>
      by_cases hc : ['/', '*'] <+: c :: s
      · obtain ⟨rest, rfl, rfl⟩ := exists_of_opens hc
        have hrest := afterClose?_append_sep hd rest more
        have hrest' := afterClose?_append_sep hd' rest more'
        simp only [List.cons_append]
        cases ha : afterClose? rest with
        | some m =>
          rw [ha, Option.elim_some] at hrest hrest'
          rw [dropBlockComments_comment hrest, dropBlockComments_comment hrest']
          have hlt := length_afterClose?_lt ha
          exact ih m.length (by simp only [List.length_cons]; omega) (h ∘ .comment ha) rfl
        | none =>
          rw [ha, Option.elim_none] at hrest hrest'
          rw [dropBlockComments_comment (hrest.trans hmore),
            dropBlockComments_comment (hrest'.trans hmore')]
      · rw [List.cons_append, List.cons_append,
          dropBlockComments_char (not_opens_append_sep hd hc more),
          dropBlockComments_char (not_opens_append_sep hd' hc more'),
          ih s.length (by simp) (h ∘ .char hc) rfl]

theorem ClosesBlocks.of_append_newline (h : ClosesBlocks (s ++ ['\n'])) : ClosesBlocks s := by
  generalize ht : s ++ ['\n'] = t at h
  induction h generalizing s with
  | nil => simp at ht
  | @comment rest more ha hm ih =>
    match s, ht with
    | _ :: _ :: s, ht =>
      simp only [List.cons_append, List.cons.injEq] at ht
      obtain ⟨rfl, rfl, rfl⟩ := ht
      rw [afterClose?_append_sep (by decide)] at ha
      cases hs : afterClose? s with
      | none =>
        rw [hs] at ha
        cases ha
      | some r =>
        rw [hs] at ha
        exact .comment hs (ih (Option.some.inj ha))
  | @char c rest hc hr ih =>
    cases s with
    | nil => exact .nil
    | cons d s =>
      obtain ⟨rfl, rfl⟩ := List.cons.inj ht
      exact .char (fun hp => hc (hp.trans (List.prefix_append (d :: s) ['\n']))) (ih rfl)

theorem ClosesBlocks.dropBlockComments_append (h : ClosesBlocks s) (hs : EndsLine s)
    (more : List Char) :
    dropBlockComments (s ++ more) = dropBlockComments s ++ dropBlockComments more := by
  rcases List.eq_nil_or_concat s with rfl | ⟨t, c, rfl⟩
  · rw [dropBlockComments.eq_1]
    rfl
  · obtain rfl := hs c (by simp)
    rw [List.concat_eq_append] at h ⊢
    have ht := h.of_append_newline
    rw [List.append_assoc, List.singleton_append,
      dropBlockComments_append_sep (by decide) (.inl ht),
      dropBlockComments_append_sep (by decide) (.inl ht), dropBlockComments.eq_1, List.append_assoc]
    rfl

theorem ClosesBlocks.endsLine_dropBlockComments (h : ClosesBlocks s) (hs : EndsLine s) :
    EndsLine (dropBlockComments s) := by
  rcases List.eq_nil_or_concat s with rfl | ⟨t, c, rfl⟩
  · rw [dropBlockComments.eq_1]
    exact hs
  · obtain rfl := hs c (by simp)
    rw [List.concat_eq_append] at h ⊢
    rw [dropBlockComments_append_sep (by decide) (.inl h.of_append_newline),
      dropBlockComments.eq_1]
    simp [EndsLine]

theorem dropBlockComments_sublist (s : List Char) : (dropBlockComments s).Sublist s := by
  fun_induction dropBlockComments s with
  | case1 => exact .slnil
  | case2 rest more h _ ih =>
    obtain ⟨t, rfl⟩ := exists_of_afterClose? h
    have hmore : more <:+ '/' :: '*' :: (t ++ '*' :: '/' :: more) :=
      ⟨'/' :: '*' :: (t ++ ['*', '/']), by simp⟩
    exact ih.trans hmore.sublist
  | case3 rest h => exact List.Sublist.refl _
  | case4 c rest hc ih => exact ih.cons_cons c

end BlockComments

end WorkspaceCycles.Source
