import Mathlib
import WorkspaceCycles.Glob
import WorkspaceCycles.Proofs.PathText

namespace WorkspaceCycles.Glob

inductive Matches : List Piece → List Char → Prop
  | nil : Matches [] []
  | skip {ps : List Piece} {s : List Char} (h : Matches ps s) : Matches (.anyRun :: ps) s
  | more (c : Char) {ps : List Piece} {s : List Char} (h : Matches (.anyRun :: ps) s) :
      Matches (.anyRun :: ps) (c :: s)
  | char {p : Piece} {ps : List Piece} {c : Char} {s : List Char} (hc : p.accepts c = true)
      (h : Matches ps s) : Matches (p :: ps) (c :: s)

section Answers

theorem answers_ne_nil (ps : List Piece) (s : List Char) : answers ps s ≠ [] :=
  List.ne_nil_of_length_eq_add_one (length_answers ps s)

theorem answers_cons (ps : List Piece) (c : Char) (s : List Char) :
    answers ps (c :: s) = matchesPieces ps (c :: s) :: answers ps s := by
  have htail : (answers ps (c :: s)).tail = answers ps s := by
    induction ps with
    | nil => simp [answers]
    | cons p ps ih =>
      obtain ⟨b, bs, hcons⟩ := List.exists_cons_of_ne_nil (answers_ne_nil ps (c :: s))
      obtain ⟨b', bs', hcons'⟩ := List.exists_cons_of_ne_nil (answers_ne_nil ps s)
      rw [hcons, List.tail_cons] at ih
      cases p <;> simp [answers, anyFrom, hcons, ih, hcons']
  obtain ⟨b, bs, hcons⟩ := List.exists_cons_of_ne_nil (answers_ne_nil ps (c :: s))
  rw [← htail, matchesPieces, hcons]
  rfl

theorem matchesPieces_nil (s : List Char) : matchesPieces [] s = true ↔ s = [] := by
  cases s <;> simp [matchesPieces, answers]

theorem matchesPieces_run_nil (ps : List Piece) :
    matchesPieces (.anyRun :: ps) [] = matchesPieces ps [] := by
  obtain ⟨b, hb⟩ := List.length_eq_one_iff.mp (length_answers ps [])
  simp [matchesPieces, answers, anyFrom, hb]

theorem matchesPieces_run_cons (ps : List Piece) (c : Char) (s : List Char) :
    matchesPieces (.anyRun :: ps) (c :: s) =
      (matchesPieces ps (c :: s) || matchesPieces (.anyRun :: ps) s) := by
  rw [matchesPieces, answers, answers_cons]
  rfl

theorem matchesPieces_char_nil {p : Piece} (ps : List Piece) (hp : p ≠ .anyRun) :
    matchesPieces (p :: ps) [] = false := by
  cases p <;> simp_all [matchesPieces, answers]

theorem matchesPieces_char_cons {p : Piece} (ps : List Piece) (c : Char) (s : List Char)
    (hp : p ≠ .anyRun) :
    matchesPieces (p :: ps) (c :: s) = (p.accepts c && matchesPieces ps s) := by
  obtain ⟨b, bs, hcons⟩ := List.exists_cons_of_ne_nil (answers_ne_nil ps s)
  cases p with
  | anyRun => exact absurd rfl hp
  | _ =>
    rw [matchesPieces, answers, answers_cons, List.tail_cons, matchesPieces, hcons]
    · rfl
    · exact hp

end Answers

theorem matchesPieces_iff {ps : List Piece} {s : List Char} :
    matchesPieces ps s = true ↔ Matches ps s := by
  induction ps generalizing s with
  | nil =>
    rw [matchesPieces_nil]
    constructor
    · rintro rfl
      exact .nil
    · rintro ⟨⟩
      rfl
  | cons p ps ih =>
    by_cases hp : p = .anyRun
    · subst hp
      induction s with
      | nil =>
        rw [matchesPieces_run_nil, ih]
        constructor
        · exact .skip
        · intro h
          cases h with
          | skip h => exact h
      | cons c s ihs =>
        rw [matchesPieces_run_cons, Bool.or_eq_true, ih, ihs]
        constructor
        · rintro (h | h)
          · exact .skip h
          · exact .more c h
        · intro h
          cases h with
          | skip h => exact .inl h
          | more _ h => exact .inr h
          | char hc => cases hc
    · cases s with
      | nil =>
        rw [matchesPieces_char_nil ps hp]
        constructor
        · intro h
          cases h
        · intro h
          cases h
          exact absurd rfl hp
      | cons c s =>
        rw [matchesPieces_char_cons ps c s hp, Bool.and_eq_true, ih]
        constructor
        · rintro ⟨hc, h⟩
          exact .char hc h
        · intro h
          cases h with
          | skip => exact absurd rfl hp
          | more => exact absurd rfl hp
          | char hc h => exact ⟨hc, h⟩

theorem isMatch_iff {pattern text : String} :
    isMatch pattern text = true ↔ Matches (parse pattern.toList) text.toList :=
  matchesPieces_iff

namespace Matches

theorem append {ps qs : List Piece} {s s' : List Char} (h : Matches ps s) (h' : Matches qs s') :
    Matches (ps ++ qs) (s ++ s') := by
  induction h with
  | nil => exact h'
  | skip _ ih => exact .skip ih
  | more c _ ih => exact .more c ih
  | char hc _ ih => exact .char hc ih

theorem literals (s : List Char) : Matches (s.map .literal) s := by
  induction s with
  | nil => exact .nil
  | cons c s ih => exact .char (decide_eq_true rfl) ih

theorem run (s : List Char) : Matches [.anyRun] s := by
  induction s with
  | nil => exact .skip .nil
  | cons c s ih => exact .more c ih

theorem join {pss : List (List Piece)} {ss : List (List Char)} (sep : Char)
    (h : List.Forall₂ Matches pss ss) :
    Matches (Text.join [.literal sep] pss) (Text.join [sep] ss) := by
  induction h with
  | nil => exact .nil
  | cons hfirst hrest ih =>
    cases hrest with
    | nil => exact hfirst
    | cons => exact (hfirst.append (literals [sep])).append ih

theorem count_le {ps : List Piece} {s : List Char} (h : Matches ps s) (c : Char) :
    ps.count (.literal c) ≤ s.count c := by
  induction h with
  | nil => simp
  | skip _ ih => simpa using ih
  | more _ _ ih => exact ih.trans List.count_le_count_cons
  | @char p ps c' s hc _ ih =>
    rw [List.count_cons, List.count_cons]
    by_cases hp : p = .literal c
    · subst hp
      obtain rfl : c = c' := of_decide_eq_true hc
      simpa using ih
    · rw [if_neg (by simpa using hp)]
      omega

end Matches

theorem count_join {α : Type} [DecidableEq α] (sep : α) (pieces : List (List α)) :
    pieces.length - 1 ≤ (Text.join [sep] pieces).count sep := by
  induction pieces with
  | nil => simp
  | cons piece pieces ih =>
    cases pieces with
    | nil => simp
    | cons next pieces =>
      simp only [Text.join, List.count_append, List.count_singleton_self, List.length_cons] at ih ⊢
      omega

theorem count_join_of_not_mem {α : Type} [DecidableEq α] {sep : α} {pieces : List (List α)}
    (h : ∀ piece ∈ pieces, sep ∉ piece) :
    (Text.join [sep] pieces).count sep = pieces.length - 1 := by
  induction pieces with
  | nil => rfl
  | cons piece pieces ih =>
    obtain ⟨hpiece, hpieces⟩ := List.forall_mem_cons.mp h
    specialize ih hpieces
    have hzero : piece.count sep = 0 := List.count_eq_zero_of_not_mem hpiece
    cases pieces with
    | nil => exact hzero
    | cons next pieces =>
      simp only [Text.join, List.count_append, List.count_singleton_self, List.length_cons] at ih ⊢
      omega

theorem parse_append_of_plain {s : List Char} (h : ∀ c ∈ s, c ≠ '*' ∧ c ≠ '?' ∧ c ≠ '[')
    (more : List Char) : parse (s ++ more) = s.map .literal ++ parse more := by
  induction s with
  | nil => rfl
  | cons c s ih =>
    obtain ⟨⟨hstar, hmark, hbracket⟩, hs⟩ := List.forall_mem_cons.mp h
    rw [List.cons_append, parse, ih hs, List.map_cons, List.cons_append]
    · exact hstar
    · exact hmark
    · exact hbracket

theorem parse_of_plain {s : List Char} (h : ∀ c ∈ s, c ≠ '*' ∧ c ≠ '?' ∧ c ≠ '[') :
    parse s = s.map .literal := by
  have hparse := parse_append_of_plain h []
  rwa [List.append_nil, parse, List.append_nil] at hparse

theorem exists_parse_cons {c : Char} (h : c ≠ '[') :
    ∃ p, ∀ s, parse (c :: s) = p :: parse s := by
  by_cases hstar : c = '*'
  · subst hstar
    exact ⟨.anyRun, fun s => by rw [parse]⟩
  by_cases hmark : c = '?'
  · subst hmark
    exact ⟨.anyChar, fun s => by rw [parse]⟩
  refine ⟨.literal c, fun s => ?_⟩
  rw [parse]
  · exact hstar
  · exact hmark
  · exact h

theorem parse_eq_join {s : List Char} (h : '[' ∉ s) :
    parse s = Text.join [.literal '/'] ((Text.split '/' s).map parse) := by
  induction s with
  | nil => simp [Text.split, Text.join]
  | cons c s ih =>
    simp only [List.mem_cons, not_or] at h
    specialize ih h.2
    obtain ⟨piece, pieces, hsplit⟩ := List.exists_cons_of_ne_nil (Text.split_ne_nil '/' s)
    rw [hsplit, List.map_cons] at ih
    by_cases hc : c = '/'
    · subst hc
      have hslash : parse ('/' :: s) = .literal '/' :: parse s := by
        rw [parse] <;> decide
      have hnil : parse [] = [] := by rw [parse]
      rw [hslash, ih, Text.split, if_pos rfl, hsplit, List.map_cons, hnil]
      rfl
    · obtain ⟨p, hp⟩ := exists_parse_cons (Ne.symm h.1)
      rw [hp, ih, Text.split, if_neg hc, hsplit]
      cases pieces <;> simp [Text.join, hp]

theorem matches_literals_iff {lead s : List Char} {ps : List Piece} :
    Matches (lead.map .literal ++ ps) s ↔ ∃ rest, s = lead ++ rest ∧ Matches ps rest := by
  induction lead generalizing s with
  | nil => simp
  | cons c lead ih =>
    constructor
    · intro h
      cases h with
      | char hc h =>
        obtain ⟨rest, rfl, hrest⟩ := ih.mp h
        exact ⟨rest, by rw [of_decide_eq_true hc]; rfl, hrest⟩
    · rintro ⟨rest, rfl, hrest⟩
      exact .char (decide_eq_true rfl) (ih.mpr ⟨rest, rfl, hrest⟩)

theorem matches_run_iff {s : List Char} {ps : List Piece} :
    Matches (.anyRun :: ps) s ↔ ∃ front rest, s = front ++ rest ∧ Matches ps rest := by
  constructor
  · intro h
    induction s with
    | nil =>
      cases h with
      | skip h => exact ⟨[], [], rfl, h⟩
    | cons c s ih =>
      cases h with
      | skip h => exact ⟨[], c :: s, rfl, h⟩
      | more _ h =>
        obtain ⟨front, rest, rfl, hrest⟩ := ih h
        exact ⟨c :: front, rest, rfl, hrest⟩
      | char hc => cases hc
  · rintro ⟨front, rest, rfl, hrest⟩
    induction front with
    | nil => exact .skip hrest
    | cons c front ih => exact .more c ih

theorem isMatch_of_plain {pattern text : String} (hstar : '*' ∉ pattern.toList)
    (hmark : '?' ∉ pattern.toList) (hbracket : '[' ∉ pattern.toList) :
    isMatch pattern text = true ↔ text = pattern := by
  have hparse : parse pattern.toList = pattern.toList.map .literal ++ [] := by
    rw [parse_of_plain, List.append_nil]
    exact fun c hc => ⟨ne_of_mem_of_not_mem hc hstar, ne_of_mem_of_not_mem hc hmark,
      ne_of_mem_of_not_mem hc hbracket⟩
  rw [isMatch_iff, hparse, matches_literals_iff, ← String.toList_inj]
  constructor
  · rintro ⟨rest, hs, hrest⟩
    cases hrest
    rw [hs, List.append_nil]
  · intro hs
    exact ⟨[], by rw [hs, List.append_nil], .nil⟩

end WorkspaceCycles.Glob
