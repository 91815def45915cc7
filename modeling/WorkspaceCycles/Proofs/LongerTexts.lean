import Mathlib.Data.List.Infix
import Mathlib.Data.List.TakeWhile
import WorkspaceCycles.Proofs.ListedHits
import WorkspaceCycles.Proofs.PrintedCalls

namespace WorkspaceCycles.Source

def EndsLine (s : List Char) : Prop :=
  ∀ c ∈ s.getLast?, c = '\n'

theorem EndsLine.getLast? {s : List Char} (h : EndsLine s) (hne : s ≠ []) :
    s.getLast? = some '\n' := by
  rw [List.getLast?_eq_some_getLast hne, h _ (List.getLast?_eq_some_getLast hne)]

theorem EndsLine.newline_mem {s : List Char} (h : EndsLine s) (hne : s ≠ []) : '\n' ∈ s :=
  List.mem_of_getLast? (h.getLast? hne)

theorem EndsLine.of_suffix {s t : List Char} (h : EndsLine s) (ht : t <:+ s) : EndsLine t := by
  obtain ⟨r, rfl⟩ := ht
  intro c hc
  have hne : t ≠ [] := by
    rintro rfl
    cases hc
  exact h c (by rwa [List.getLast?_append_of_ne_nil _ hne])

theorem EndsLine.append {s t : List Char} (hs : EndsLine s) (ht : EndsLine t) :
    EndsLine (s ++ t) := by
  intro c hc
  rw [List.getLast?_append] at hc
  cases hlast : t.getLast? with
  | none => exact hs c (by simpa [hlast] using hc)
  | some d => exact ht c (by simpa [hlast] using hc)

theorem EndsLine.exists_line {s : List Char} (h : EndsLine s) (hne : s ≠ []) :
    ∃ line more, s = line ++ '\n' :: more ∧ '\n' ∉ line ∧ more <:+ s := by
  obtain ⟨line, more, hs, hline⟩ := List.eq_append_cons_of_mem (h.newline_mem hne)
  refine ⟨line, more, hs, hline, line ++ ['\n'], ?_⟩
  simp [hs]

theorem exists_last_line (s : List Char) :
    ∃ above line, s = above ++ line ∧ EndsLine above ∧ '\n' ∉ line := by
  induction s using List.reverseRecOn with
  | nil => exact ⟨[], [], rfl, by simp [EndsLine], by simp⟩
  | append_singleton s c ih =>
    obtain ⟨above, line, rfl, ha, hn⟩ := ih
    by_cases hc : c = '\n'
    · exact ⟨above ++ line ++ [c], [], by simp, by simp [EndsLine, hc], by simp⟩
    · refine ⟨above, line ++ [c], by simp, ha, ?_⟩
      simp [hn, Ne.symm hc]

theorem exists_eq_newline_cons {q : List Char} (hq : ∀ c ∈ q.head?, c = '\n') :
    q = [] ∨ ∃ more, q = '\n' :: more := by
  cases q with
  | nil => exact .inl rfl
  | cons c more => exact .inr ⟨more, by rw [hq c rfl]⟩

theorem isClauseChar_of_isBlank {c : Char} (h : Text.isBlank c) : isClauseChar c := by
  simp [isClauseChar, h]

def Hit.lift (added : Nat) (hit : Hit) : Hit :=
  { hit with left := hit.left + added }

theorem takeWhile_append_of_mem {p : Char → Bool} {s : List Char} {c : Char} (hc : c ∈ s)
    (hp : p c = false) (more : List Char) : (s ++ more).takeWhile p = s.takeWhile p := by
  have hlt : (s.takeWhile p).length ≠ s.length := by
    intro h
    have heq := (List.takeWhile_prefix p).eq_of_length h
    rw [← heq] at hc
    rw [List.mem_takeWhile_imp hc] at hp
    cases hp
  rw [List.takeWhile_append, if_neg hlt]

theorem dropWhile_append_of_mem {p : Char → Bool} {s : List Char} {c : Char} (hc : c ∈ s)
    (hp : p c = false) (more : List Char) : (s ++ more).dropWhile p = s.dropWhile p ++ more := by
  rw [List.dropWhile_append, if_neg]
  intro he
  rw [List.dropWhile_eq_nil_iff.mp (List.isEmpty_iff.mp he) c hc] at hp
  cases hp

theorem dropLead?_append_of_mem {lead s : List Char} {c : Char} (hc : c ∈ s) (hl : c ∉ lead)
    (more : List Char) :
    Text.dropLead? lead (s ++ more) = (Text.dropLead? lead s).map (· ++ more) := by
  induction lead generalizing s with
  | nil => rfl
  | cons a lead ih =>
    cases s with
    | nil => cases hc
    | cons b s =>
      simp only [List.cons_append, Text.dropLead?]
      split
      · rename_i hab
        simp only [List.mem_cons, not_or] at hl
        have hs : c ∈ s := by
          rcases List.mem_cons.mp hc with rfl | hs
          · exact absurd (eq_of_beq hab).symm hl.1
          · exact hs
        exact ih hs hl.2
      · rfl

theorem quotedSpecifier?_cons_append {q c : Char} {r : List Char} (hc : c ∈ r)
    (hend : isSpecifierChar c = false) (more : List Char) :
    quotedSpecifier? (q :: (r ++ more)) =
      (quotedSpecifier? (q :: r)).map fun p => (p.1.lift more.length, p.2 ++ more) := by
  simp only [quotedSpecifier?, takeWhile_append_of_mem hc hend, dropWhile_append_of_mem hc hend]
  cases hd : r.dropWhile isSpecifierChar with
  | nil =>
    rw [List.dropWhile_eq_nil_iff.mp hd c hc] at hend
    cases hend
  | cons closing t =>
    simp only [List.cons_append]
    split
    · simp [Hit.lift]
    · rfl

theorem quotedSpecifier?_append {s : List Char} (h : '\n' ∈ s) (more : List Char) :
    quotedSpecifier? (s ++ more) =
      (quotedSpecifier? s).map fun p => (p.1.lift more.length, p.2 ++ more) := by
  cases s with
  | nil => cases h
  | cons q r =>
    by_cases hq : q = '\n'
    · have hquote : isQuote q = false := by
        rw [hq]
        decide
      rw [List.cons_append, quotedSpecifier?_cons_of_not_isQuote hquote,
        quotedSpecifier?_cons_of_not_isQuote hquote]
      rfl
    · have hr : '\n' ∈ r := (List.mem_cons.mp h).resolve_left (Ne.symm hq)
      exact quotedSpecifier?_cons_append hr (by decide) more

theorem afterKeyword?_append_of_mem {s : List Char} (h : '\n' ∈ s) (more : List Char) :
    afterKeyword? (s ++ more) = (afterKeyword? s).map (· ++ more) := by
  unfold afterKeyword?
  rw [dropLead?_append_of_mem h (by decide), dropLead?_append_of_mem h (by decide)]
  cases Text.dropLead? "import".toList s <;> rfl

end WorkspaceCycles.Source
