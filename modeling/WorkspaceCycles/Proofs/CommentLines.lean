import WorkspaceCycles.Proofs.BlankLines
import WorkspaceCycles.Proofs.BlockComments
import WorkspaceCycles.Proofs.LineComments

namespace WorkspaceCycles.Source

section Above

variable {s : List Char} (hcloses : ClosesBlocks s) (hs : EndsLine s)

include hcloses hs

theorem exists_dropComments_append : ∃ u b, EndsLine u ∧ IsBlankLines b ∧
    dropComments s = u ++ b ∧
      ∀ more, dropComments (s ++ more) = u ++ dropLineComments (b ++ dropBlockComments more) := by
  obtain ⟨u, b, hu, hb, hblank, heq⟩ :=
    exists_dropLineComments_append (hcloses.endsLine_dropBlockComments hs)
  refine ⟨u, b, hu, ⟨hb, hblank⟩, ?_, fun more => ?_⟩
  · have habove := heq []
    rw [List.append_nil, List.append_nil, dropLineComments_of_blank hblank] at habove
    exact habove
  · rw [dropComments, hcloses.dropBlockComments_append hs, heq]

theorem specifiers_append_eq {x below : List Char}
    (hx : ∀ b, IsBlankLines b → ∃ b', IsBlankLines b' ∧
      dropLineComments (b ++ dropBlockComments x) = b' ++ dropComments below)
    (hcut : ¬ PartsFrom (dropComments (s ++ x)) (dropComments (s ++ below)) (dropComments below))
    (skipTypeOnly skipDynamicImports : Bool) :
    specifiers (s ++ x) skipTypeOnly skipDynamicImports =
      specifiers (s ++ below) skipTypeOnly skipDynamicImports := by
  obtain ⟨u, b, hu, hb, -, hmore⟩ := exists_dropComments_append hcloses hs
  obtain ⟨b', hb', hx⟩ := hx b hb
  have hbelow : ∃ b₀, IsBlankLines b₀ ∧
      dropLineComments (b ++ dropBlockComments below) = b₀ ++ dropComments below := by
    rw [dropLineComments_blank_append hb.blank]
    split
    · exact ⟨[], isBlankLines_nil, rfl⟩
    · exact ⟨b, hb, rfl⟩
  obtain ⟨b₀, hb₀, hbelow⟩ := hbelow
  rw [hmore, hmore, hx, hbelow] at hcut
  rw [specifiers_eq, specifiers_eq, hmore, hmore, hx, hbelow]
  exact listedIn_blank_lines hu hb' hb₀ hcut _ _

theorem specifiers_append_blank_line {x below : List Char}
    (hx : dropBlockComments x = '\n' :: dropBlockComments below)
    (hcut : ¬ IsBareFromOf 2 (dropComments s) (dropComments below))
    (skipTypeOnly skipDynamicImports : Bool) :
    specifiers (s ++ x) skipTypeOnly skipDynamicImports =
      specifiers (s ++ below) skipTypeOnly skipDynamicImports := by
  obtain ⟨u, b, hu, hb, hs, hmore⟩ := exists_dropComments_append hcloses hs
  have hnewline := isBlankLines_newline
  have hblank : ∀ c ∈ b ++ ['\n'], Text.isBlank c :=
    List.forall_mem_append.mpr ⟨hb.blank, hnewline.blank⟩
  rw [specifiers_eq, specifiers_eq, hmore, hmore, hx, ← List.singleton_append, ← List.append_assoc,
    dropLineComments_blank_append hblank, dropLineComments_blank_append hb.blank]
  split
  · rfl
  · rw [List.append_assoc, ← List.append_assoc u, ← List.append_assoc u, ← hs]
    refine listedIn_insert_blank (hs ▸ hu.append hb.endsLine) hnewline.endsLine hnewline.blank
      (fun n h => ?_) _ _
    have hn : n ≠ 2 := fun he => hcut (he ▸ h)
    simp only [List.length_singleton]
    omega

end Above

/-- A comment on a line of its own changes nothing of what is listed, if no block comment leads out
of it and the blank line that it leaves for those above it does not part a keyword from the word
`from`. -/
theorem line_comment_irrelevant {s₁ s₂ t : List Char} (hline : EndsLine s₁)
    (hcloses : ClosesBlocks s₁) (ht : '\n' ∉ t)
    (hblock : ClosesBlocks ("//".toList ++ t) ∨ afterClose? s₂ = none)
    (hstart : startsLineComment (dropBlockComments ("//".toList ++ t)))
    (hcut : ¬ PartsFrom (dropComments (s₁ ++ ("//".toList ++ t ++ '\n' :: s₂)))
      (dropComments (s₁ ++ s₂)) (dropComments s₂))
    (skipTypeOnly skipDynamicImports : Bool) :
    specifiers (s₁ ++ ("//".toList ++ t ++ '\n' :: s₂)) skipTypeOnly skipDynamicImports =
      specifiers (s₁ ++ s₂) skipTypeOnly skipDynamicImports := by
  have hcomment : '\n' ∉ dropBlockComments ("//".toList ++ t) := by
    intro hm
    rcases List.mem_append.mp ((dropBlockComments_sublist _).subset hm) with hm | hm
    · exact absurd hm (by decide)
    · exact ht hm
  refine specifiers_append_eq hcloses hline (fun b hb => ?_) hcut _ _
  refine ⟨['\n'], isBlankLines_newline, ?_⟩
  rw [dropBlockComments_append_sep (by decide) hblock,
    dropLineComments_comment_line hb.blank hstart hcomment]
  rfl

theorem line_comment_irrelevant_in_clause :
    specifiers ("import \x7b\n".toList ++ ("//".toList ++ " one /* of */ two".toList ++
        '\n' :: "a \x7d from './a'\n/* end */\n".toList)) true true =
      specifiers ("import \x7b\n".toList ++ "a \x7d from './a'\n/* end */\n".toList) true true := by
  have hends : EndsLine "import \x7b\n".toList := fun c hc => (Option.some.inj hc).symm
  have hline : "//".toList ++ " one /* of */ two".toList =
      '/' :: '/' :: (" one ".toList ++ '/' :: '*' :: " of */ two".toList) := by decide
  have hcloses : ClosesBlocks ("//".toList ++ " one /* of */ two".toList) := by
    rw [hline]
    refine .char (by decide) (.char (by decide) (.append_of_not_mem (by decide) ?_))
    have hclose : afterClose? " of */ two".toList = some " two".toList := by decide
    exact .comment hclose (.of_not_mem (by decide))
  refine line_comment_irrelevant hends (.of_not_mem (by decide)) (by decide) (.inl hcloses)
    (by decide +kernel) ?_ true true
  rintro ⟨u, b, b', n, -, -, -, -, -, hfrom, -⟩
  exact absurd hfrom.from_after (by decide +kernel)

theorem line_comment_not_irrelevant :
    (specifiers "// /*\nimport './a'\n/* */\n".toList true true = [] ∧
      specifiers "import './a'\n/* */\n".toList true true = ["./a"]) ∧
    (specifiers "import \x7b\n//* t */\na \x7d from './a'\n".toList true true = [] ∧
      specifiers "import \x7b\na \x7d from './a'\n".toList true true = ["./a"]) ∧
    specifiers "import type\n// t\n\nfrom './x'\n".toList true true = [] ∧
      specifiers "import type\n\nfrom './x'\n".toList true true = ["./x"] := by
  decide +kernel

/-- A block comment with the end of its line changes nothing of what is listed, if it does not stand
where the blank line that it leaves is the third blank between a keyword and the word `from`. -/
theorem block_comment_irrelevant {s₁ s₂ t : List Char} (hline : EndsLine s₁)
    (hcloses : ClosesBlocks s₁) (ht : ¬ "*/".toList <:+: t)
    (hcut : ¬ IsBareFromOf 2 (dropComments s₁) (dropComments s₂))
    (skipTypeOnly skipDynamicImports : Bool) :
    specifiers (s₁ ++ ("/*".toList ++ t ++ ("*/".toList ++ '\n' :: s₂)))
        skipTypeOnly skipDynamicImports =
      specifiers (s₁ ++ s₂) skipTypeOnly skipDynamicImports := by
  have hopen : "/*".toList = ['/', '*'] := by decide
  have hclose : "*/".toList = ['*', '/'] := by decide
  refine specifiers_append_blank_line hcloses hline ?_ hcut _ _
  rw [hclose] at ht
  simp only [hopen, hclose, List.cons_append, List.nil_append]
  rw [dropBlockComments_comment (afterClose?_append_close ht _), dropBlockComments_cons (by decide)]

theorem block_comment_irrelevant_in_clause :
    specifiers ("import \x7b\n".toList ++
        ("/*".toList ++ "/ one /* // 'two' **\nimport './b'\n*".toList ++
          ("*/".toList ++ '\n' :: "a \x7d from './a'\n".toList))) true true =
      specifiers ("import \x7b\n".toList ++ "a \x7d from './a'\n".toList) true true := by
  have hends : EndsLine "import \x7b\n".toList := fun c hc => (Option.some.inj hc).symm
  refine block_comment_irrelevant hends (.of_not_mem (by decide)) (by decide) ?_ true true
  intro h
  exact absurd h.from_after (by decide +kernel)

theorem block_comment_not_irrelevant :
    specifiers "import type\n/* t */\n\nfrom './x'\n".toList true true = [] ∧
      specifiers "import type\n\nfrom './x'\n".toList true true = ["./x"] := by
  decide +kernel

end WorkspaceCycles.Source
