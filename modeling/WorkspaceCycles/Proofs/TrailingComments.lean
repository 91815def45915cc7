import WorkspaceCycles.Proofs.CommentLines
import WorkspaceCycles.Proofs.CutTexts

namespace WorkspaceCycles.Source

/-- A comment between the two texts is taken out: it stands within a block comment, behind nothing
but blanks, or behind another line comment. -/
inductive IsTakenOut (s₁ s₂ : List Char) : Prop
  | inBlock (ho : ¬ ClosesBlocks s₁) (hc : afterClose? s₂ ≠ none)
  | ownLine {above line : List Char} (hs : dropBlockComments s₁ = above ++ line)
      (ha : EndsLine above) (hn : '\n' ∉ line)
      (hl : startsLineComment (Text.trimStart (line ++ " //".toList)))

/-- What stands behind the bracket of a call is no quote. -/
def IsCallFree (t : List Char) : Prop :=
  ∀ name ∈ ["require", "import"], ∀ before after, t = before ++ (name.toList ++ '(' :: after) →
    ∃ c ∈ (Text.trimStart after).head?, isQuote c = false

theorem listedIn_belowLine {q : List Char} (hq : ∀ c ∈ q.head?, c = '\n')
    (skipTypeOnly skipDynamicImports : Bool) :
    listedIn (belowLine q) skipTypeOnly skipDynamicImports =
      listedIn (dropLineComments q) skipTypeOnly skipDynamicImports := by
  rcases exists_eq_newline_cons hq with rfl | ⟨more, rfl⟩
  · rw [belowLine, dropLineComments_eq]
    rfl
  · have hmore : dropLineComments ('\n' :: more) =
        if startsLineComment (Text.trimStart more) then dropLineComments more
        else ['\n'] ++ dropLineComments more :=
      dropLineComments_blank_append isBlankLines_newline.blank more
    have hnewline := listedIn_blank_append isBlankLines_newline.endsLine isBlankLines_newline.blank
      (dropLineComments more) skipTypeOnly skipDynamicImports
    rw [belowLine_newline_cons, hmore]
    split
    · exact hnewline
    · rfl

section Comment

variable {t q : List Char} (hline : '\n' ∉ t) (hq : ∀ c ∈ q.head?, c = '\n')
  (hcalls : IsCallFree t)

theorem argument?_append_eq_none {body : List Char}
    (h : ∃ c ∈ (Text.trimStart body).head?, isQuote c = false) (more : List Char) :
    argument? (body ++ more) = none := by
  obtain ⟨c, hc, hquote⟩ := h
  have htrim : Text.trimStart (body ++ more) = Text.trimStart body ++ more := by
    rw [Text.trimStart, List.dropWhile_append, if_neg]
    · rfl
    · intro he
      rw [Text.trimStart, List.isEmpty_iff.mp he] at hc
      cases hc
  obtain ⟨rest, hrest⟩ := List.head?_eq_some_iff.mp hc
  rw [argument?, htrim, hrest, List.cons_append, quotedSpecifier?_cons_of_not_isQuote hquote]
  rfl

include hq hcalls

theorem calls_comment {name : String} (hname : name ∈ ["require", "import"]) (inWord : Bool) :
    calls name.toList inWord (" // ".toList ++ t ++ q) = calls name.toList false q := by
  have hcallee : IsCallee name.toList := by
    simp only [List.mem_cons, List.not_mem_nil, or_false] at hname
    rcases hname with rfl | rfl
    · exact .inl rfl
    · exact .inr rfl
  have hnone : ∀ more body, name.toList ++ ['('] ++ body <:+ t →
      argument? (body ++ more) = none := by
    rintro more body ⟨before, ht⟩
    apply argument?_append_eq_none
    exact hcalls name hname before body (by simp [← ht])
  have hspace : Text.isWord ' ' = false := by decide
  have hnewline : Text.isWord '\n' = false := by decide
  rw [comment_eq, calls_append_of_not_infix (hcallee.not_mem (by decide) (by decide))
    (not_infix_of_not_mem _ (by decide)), hspace]
  rcases exists_eq_newline_cons hq with rfl | ⟨more, rfl⟩
  · have hend := fun body hb => List.append_nil body ▸ hnone [] body hb
    rw [List.append_nil, calls_eq_nil hend, calls_nil]
  · have hbelow := calls_blank_append isBlankLines_newline.blank isBlankLines_newline.endsLine
      (hcallee.not_mem (c := '\n') (by decide) (by decide)) more
    rw [calls_append (hcallee.not_mem (by decide) (by decide)) (hnone _), hnewline]
    exact hbelow.symm

include hline

theorem listedIn_append_comment {v : List Char}
    (hopen : EndsInSpecifier v → ∀ c ∈ t, isQuote c = false)
    (skipTypeOnly skipDynamicImports : Bool) :
    listedIn (v ++ (" // ".toList ++ t ++ q)) skipTypeOnly skipDynamicImports =
      listedIn v skipTypeOnly skipDynamicImports ++ listedIn q skipTypeOnly skipDynamicImports := by
  have hcomment : '\n' ∉ " // ".toList ++ t := by
    rw [List.mem_append, not_or]
    exact ⟨by decide, hline⟩
  have hcut : IsCut (" // ".toList ++ t ++ q) :=
    ⟨[' '], "// ".toList ++ t ++ q, by simp, List.all_eq_true.mp (by decide), by
      intro c hc
      obtain rfl := Option.some.inj hc
      decide⟩
  refine listedIn_append_cut hcut (fun hv c hc => ?_) ?_ ?_ ?_ _ _
  · have hmarks : ∀ c ∈ " // ".toList, isQuote c = false := by
      have hall : " // ".toList.all fun c => !isQuote c := by decide
      simpa using List.all_eq_true.mp hall
    have hfirst : (" // ".toList ++ t ++ q).takeWhile notNewline = " // ".toList ++ t :=
      congrArg Prod.fst (splitLine_append_end hq hcomment)
    rw [hfirst, List.mem_append] at hc
    rcases hc with hc | hc
    · exact hmarks c hc
    · exact hopen hv c hc
  · simp only [List.length_append]
    omega
  · rw [snd_splitLine_append hcomment]
    rcases exists_eq_newline_cons hq with rfl | ⟨more, rfl⟩
    · exact (statements_of_none rfl).symm
    · have hbelow := statements_blank_append isBlankLines_newline.blank
        isBlankLines_newline.endsLine more
      rw [splitLine_newline_cons]
      exact hbelow.symm
  · exact fun name hname inWord => calls_comment hq hcalls hname inWord

end Comment

theorem listedIn_blank_line {u l q : List Char} (hu : EndsLine u) (hl : ∀ c ∈ l, Text.isBlank c)
    (hq : ∀ c ∈ q.head?, c = '\n')
    (hcut : ¬ PartsFrom (u ++ belowLine q) (u ++ dropLineComments (l ++ q))
      (dropLineComments q.tail))
    (skipTypeOnly skipDynamicImports : Bool) :
    listedIn (u ++ belowLine q) skipTypeOnly skipDynamicImports =
      listedIn (u ++ dropLineComments (l ++ q)) skipTypeOnly skipDynamicImports := by
  rcases exists_eq_newline_cons hq with rfl | ⟨more, rfl⟩
  · rw [List.append_nil, dropLineComments_of_blank hl, listedIn_append_blank hu hl]
    exact congrArg (listedIn · _ _) (List.append_nil u)
  · have hnewline := isBlankLines_newline
    have hblank : IsBlankLines (l ++ ['\n']) :=
      ⟨by simp [EndsLine], List.forall_mem_append.mpr ⟨hl, hnewline.blank⟩⟩
    have hline : l ++ '\n' :: more = l ++ ['\n'] ++ more := by simp
    have hbelow : ∃ b, IsBlankLines b ∧
        dropLineComments (l ++ '\n' :: more) = b ++ dropLineComments more := by
      rw [hline, dropLineComments_blank_append hblank.blank]
      split
      · exact ⟨[], isBlankLines_nil, rfl⟩
      · exact ⟨_, hblank, rfl⟩
    obtain ⟨b, hb, hbelow⟩ := hbelow
    rw [belowLine_newline_cons, ← List.singleton_append, hbelow, List.tail_cons] at hcut
    rw [belowLine_newline_cons, ← List.singleton_append, hbelow]
    exact listedIn_blank_lines hu hnewline hb hcut _ _

section Trailing

variable {s₁ s₂ t : List Char} (hend : ∀ c ∈ s₂.head?, c = '\n') (hline : '\n' ∉ t)
  (hopen : ¬ "/*".toList <:+: t) (hclose : ¬ "*/".toList <:+: t)

include hend

theorem head?_dropBlockComments : ∀ c ∈ (dropBlockComments s₂).head?, c = '\n' := by
  rcases exists_eq_newline_cons hend with rfl | ⟨more, rfl⟩
  · rw [dropBlockComments.eq_1]
    simp
  · rw [dropBlockComments_cons (by decide)]
    simp

theorem dropComments_tail :
    dropComments s₂.tail = dropLineComments (dropBlockComments s₂).tail := by
  rcases exists_eq_newline_cons hend with rfl | ⟨more, rfl⟩
  · rw [List.tail_nil, dropComments, dropBlockComments.eq_1, List.tail_nil]
  · rw [dropBlockComments_cons (by decide)]
    rfl

theorem dropBlockComments_append_end (h : ClosesBlocks s₁ ∨ afterClose? s₂ = none) :
    dropBlockComments (s₁ ++ s₂) = dropBlockComments s₁ ++ dropBlockComments s₂ := by
  rcases exists_eq_newline_cons hend with rfl | ⟨more, rfl⟩
  · rw [dropBlockComments.eq_1, List.append_nil, List.append_nil]
  · rw [dropBlockComments_append_sep (by decide) (h.imp_right afterClose?_eq_none_of_cons),
      dropBlockComments_cons (by decide)]

include hclose

theorem afterClose?_comment :
    afterClose? ('/' :: '/' :: ' ' :: t ++ s₂) = afterClose? s₂ := by
  have hcomment : ¬ ['*', '/'] <:+: '/' :: '/' :: ' ' :: t := by
    simpa [List.infix_cons_iff] using hclose
  rcases exists_eq_newline_cons hend with rfl | ⟨more, rfl⟩
  · rw [List.append_nil, afterClose?_of_not_infix hcomment]
    rfl
  · rw [afterClose?_append_sep (by decide), afterClose?_of_not_infix hcomment]
    exact (afterClose?_append_sep (by decide) [] more).symm

theorem dropBlockComments_within (h : ¬ (ClosesBlocks s₁ ∨ afterClose? s₂ = none)) :
    dropBlockComments (s₁ ++ (" // ".toList ++ t ++ s₂)) = dropBlockComments (s₁ ++ s₂) := by
  rw [not_or] at h
  obtain ⟨rest, hrest⟩ := Option.ne_none_iff_exists'.mp h.2
  have hcomment := (afterClose?_comment hend hclose).trans hrest
  rcases exists_eq_newline_cons hend with rfl | ⟨more, rfl⟩
  · cases hrest
  · have hmore : afterClose? more = some rest :=
      (afterClose?_append_sep (by decide) [] more).symm.trans hrest
    exact dropBlockComments_append_congr (by decide) (by decide) hcomment hmore h.1

include hopen

theorem dropBlockComments_behind (h : ClosesBlocks s₁ ∨ afterClose? s₂ = none) :
    dropBlockComments (s₁ ++ (" // ".toList ++ t ++ s₂)) =
      dropBlockComments s₁ ++ (" // ".toList ++ t ++ dropBlockComments s₂) := by
  have hcomment : ¬ ['/', '*'] <:+: '/' :: '/' :: ' ' :: t := by
    simpa [List.infix_cons_iff] using hopen
  have hstar : ∀ c ∈ s₂.head?, c ≠ '*' := by
    intro c hc
    rw [hend c hc]
    decide
  have hnone := h.imp_right (afterClose?_comment hend hclose).trans
  have hdrop := dropBlockComments_append_sep (d := ' ') (by decide) hnone
  rw [dropBlockComments_append_of_head hcomment hstar] at hdrop
  exact hdrop

include hline

theorem dropComments_behind (hkept : ¬ IsTakenOut s₁ s₂) :
    dropComments (s₁ ++ (" // ".toList ++ t ++ s₂)) =
      dropComments s₁ ++ (" // ".toList ++ t ++ belowLine (dropBlockComments s₂)) := by
  obtain ⟨above, line, hs, ha, hn⟩ := exists_last_line (dropBlockComments s₁)
  have hblock : ClosesBlocks s₁ ∨ afterClose? s₂ = none := by
    by_contra hblock
    rw [not_or] at hblock
    exact hkept (.inBlock hblock.1 hblock.2)
  obtain ⟨u, l, -, hl, htrim, hdrop⟩ := exists_dropLineComments_last ha hn
  have hmark : ¬ startsLineComment (Text.trimStart (l ++ " //".toList)) := by
    rw [htrim]
    exact fun h => hkept (.ownLine hs ha hn h)
  obtain ⟨hcode, hstart⟩ := not_or.mp (mt (startsLineComment_mark_iff l).mpr hmark)
  have hlast := dropLineComments_append_end (q := []) (by simp) hcode hl
  have habove := hdrop []
  rw [List.append_nil, List.append_nil] at habove
  rw [List.append_nil, if_neg hstart] at hlast
  rw [dropComments, dropBlockComments_behind hend hopen hclose hblock, dropComments, hs, habove,
    hlast, hdrop, dropLineComments_comment hl hline (head?_dropBlockComments hend), if_neg hmark]
  simp only [List.append_assoc]
  rfl

theorem specifiers_behind (hkept : ¬ IsTakenOut s₁ s₂) (hcalls : IsCallFree t)
    (hquote : EndsInSpecifier (dropComments s₁) → ∀ c ∈ t, isQuote c = false)
    (skipTypeOnly skipDynamicImports : Bool) :
    specifiers (s₁ ++ (" // ".toList ++ t ++ s₂)) skipTypeOnly skipDynamicImports =
      specifiers s₁ skipTypeOnly skipDynamicImports ++
        specifiers s₂ skipTypeOnly skipDynamicImports := by
  rw [specifiers_eq, dropComments_behind hend hline hopen hclose hkept,
    listedIn_append_comment hline (head?_belowLine _) hcalls hquote,
    listedIn_belowLine (head?_dropBlockComments hend), specifiers_eq, specifiers_eq]
  rfl

theorem specifiers_own_line {above line : List Char} (h : ClosesBlocks s₁ ∨ afterClose? s₂ = none)
    (hs : dropBlockComments s₁ = above ++ line) (ha : EndsLine above) (hn : '\n' ∉ line)
    (hl : startsLineComment (Text.trimStart (line ++ " //".toList)))
    (hcut : ¬ PartsFrom (dropComments (s₁ ++ (" // ".toList ++ t ++ s₂))) (dropComments (s₁ ++ s₂))
      (dropComments s₂.tail))
    (skipTypeOnly skipDynamicImports : Bool) :
    specifiers (s₁ ++ (" // ".toList ++ t ++ s₂)) skipTypeOnly skipDynamicImports =
      specifiers (s₁ ++ s₂) skipTypeOnly skipDynamicImports := by
  obtain ⟨u, l, hu, hnl, htrim, hdrop⟩ := exists_dropLineComments_last ha hn
  have hq := head?_dropBlockComments hend
  have hmark : startsLineComment (Text.trimStart (l ++ " //".toList)) := by
    rwa [htrim]
  have hnew : dropComments (s₁ ++ (" // ".toList ++ t ++ s₂)) =
      u ++ belowLine (dropBlockComments s₂) := by
    rw [dropComments, dropBlockComments_behind hend hopen hclose h, hs, hdrop,
      dropLineComments_comment hnl hline hq, if_pos hmark]
    rfl
  have hold : dropComments (s₁ ++ s₂) = u ++ dropLineComments (l ++ dropBlockComments s₂) := by
    rw [dropComments, dropBlockComments_append_end hend h, hs, hdrop]
  rw [hnew, hold, dropComments_tail hend] at hcut
  rw [specifiers_eq, specifiers_eq, hnew, hold]
  by_cases hblank : ∀ c ∈ l, Text.isBlank c
  · exact listedIn_blank_line hu hblank hq hcut _ _
  · have hstart := ((startsLineComment_mark_iff l).mp hmark).resolve_left hblank
    rw [dropLineComments_append_end hq hblank hnl, if_pos hstart]
    rfl

end Trailing

/-- A comment behind a line changes nothing of what is listed where it is taken out, unless the
blank line that it leaves parts a keyword from the word `from`. Where it stays, and holds no call,
it cuts the text in two, so it changes nothing if and only if no import leads over the end of its
line. -/
theorem trailing_comment_contract {s₁ s₂ t : List Char} (hend : ∀ c ∈ s₂.head?, c = '\n')
    (hline : '\n' ∉ t) (hopen : ¬ "/*".toList <:+: t) (hclose : ¬ "*/".toList <:+: t)
    (skipTypeOnly skipDynamicImports : Bool) :
    (IsTakenOut s₁ s₂ →
      ¬ PartsFrom (dropComments (s₁ ++ (" // ".toList ++ t ++ s₂))) (dropComments (s₁ ++ s₂))
        (dropComments s₂.tail) →
      specifiers (s₁ ++ (" // ".toList ++ t ++ s₂)) skipTypeOnly skipDynamicImports =
        specifiers (s₁ ++ s₂) skipTypeOnly skipDynamicImports) ∧
    (¬ IsTakenOut s₁ s₂ → IsCallFree t →
      (EndsInSpecifier (dropComments s₁) → ∀ c ∈ t, isQuote c = false) →
        (specifiers (s₁ ++ (" // ".toList ++ t ++ s₂)) skipTypeOnly skipDynamicImports =
            specifiers (s₁ ++ s₂) skipTypeOnly skipDynamicImports ↔
          specifiers (s₁ ++ s₂) skipTypeOnly skipDynamicImports =
            specifiers s₁ skipTypeOnly skipDynamicImports ++
              specifiers s₂ skipTypeOnly skipDynamicImports)) := by
  constructor
  · intro htaken hcut
    by_cases hblock : ClosesBlocks s₁ ∨ afterClose? s₂ = none
    · rcases htaken with ⟨ho, hc⟩ | ⟨hs, ha, hn, hl⟩
      · exact absurd (hblock.resolve_left ho) hc
      · exact specifiers_own_line hend hline hopen hclose hblock hs ha hn hl hcut _ _
    · rw [specifiers_eq, specifiers_eq, dropComments, dropComments,
        dropBlockComments_within hend hclose hblock]
  · intro hkept hcalls hquote
    rw [specifiers_behind hend hline hopen hclose hkept hcalls hquote]
    exact eq_comm

theorem trailing_comment_contract_at_import :
    specifiers ("import \x7b\n  ".toList ++ (" // ".toList ++ "it's 'one'".toList ++
        "\na \x7d from './a'\n".toList)) true true =
      specifiers ("import \x7b\n  ".toList ++ "\na \x7d from './a'\n".toList) true true ∧
    specifiers ("const a = 1;".toList ++ (" // ".toList ++ "import one".toList ++
        "\nimport b from './b'\n".toList)) true true =
      specifiers ("const a = 1;".toList ++ "\nimport b from './b'\n".toList) true true := by
  constructor
  · have hend : ∀ c ∈ "\na \x7d from './a'\n".toList.head?, c = '\n' :=
      fun c hc => (Option.some.inj hc).symm
    have hlast : dropBlockComments "import \x7b\n  ".toList =
        "import \x7b\n".toList ++ "  ".toList := by decide +kernel
    have habove : EndsLine "import \x7b\n".toList := fun c hc => (Option.some.inj hc).symm
    refine (trailing_comment_contract hend (by decide) (by decide) (by decide) true true).1
      (.ownLine hlast habove (by decide) (by decide +kernel)) ?_
    rintro ⟨u, b, b', n, -, -, -, -, -, hfrom, -⟩
    exact absurd hfrom.from_after (by decide +kernel)
  · have hend : ∀ c ∈ "\nimport b from './b'\n".toList.head?, c = '\n' :=
      fun c hc => (Option.some.inj hc).symm
    have hkept : ¬ IsTakenOut "const a = 1;".toList "\nimport b from './b'\n".toList := by
      rintro (⟨ho, -⟩ | @⟨above, line, hs, ha, hn, hl⟩)
      · exact ho (.of_not_mem (by decide))
      · have hdrop : dropBlockComments "const a = 1;".toList = "const a = 1;".toList := by
          decide +kernel
        rw [hdrop] at hs
        have habove : above = [] := by
          by_contra hne
          have hm := List.mem_append_left line (ha.newline_mem hne)
          rw [← hs] at hm
          exact absurd hm (by decide)
        rw [habove, List.nil_append] at hs
        rw [← hs] at hl
        exact absurd hl (by decide +kernel)
    have hfree : IsCallFree "import one".toList := by
      intro name hname before after ht
      have hm : '(' ∈ "import one".toList := ht ▸ by simp
      exact absurd hm (by decide)
    have hquote : ∀ c ∈ "import one".toList, isQuote c = false := by
      have hall : "import one".toList.all fun c => !isQuote c := by decide
      simpa using List.all_eq_true.mp hall
    exact ((trailing_comment_contract hend (by decide) (by decide) (by decide) true true).2 hkept
      hfree fun _ => hquote).mpr (by decide +kernel)

theorem trailing_comment_not_irrelevant :
    (specifiers "import \x7b\na, // t\nb \x7d from './a'\n".toList true true = [] ∧
      specifiers "import \x7b\na,\nb \x7d from './a'\n".toList true true = ["./a"]) ∧
    (specifiers "const a = 1 // require('./x')\n".toList true true = ["./x"] ∧
      specifiers "const a = 1\n".toList true true = []) ∧
    (specifiers "const s = `require('` // x')\n".toList true true = ["` // x"] ∧
      specifiers "const s = `require('`\n".toList true true = []) ∧
    specifiers "import type\n\n // t\nfrom './x'\n".toList true true = ["./x"] ∧
      specifiers "import type\n\n\nfrom './x'\n".toList true true = [] := by
  decide +kernel

end WorkspaceCycles.Source
