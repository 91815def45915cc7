import Mathlib.Data.List.Infix
import Mathlib.Data.List.TakeWhile
import WorkspaceCycles.Source.Imports

namespace WorkspaceCycles.Source

structure IsSpaced (s : List Char) : Prop where
  length_le : 3 ≤ s.length
  head : s.head?.any Text.isBlank
  last : s.getLast?.any Text.isBlank

inductive IsGap : List Char → Prop
  | blank {s : List Char} (hne : s ≠ []) (hs : ∀ c ∈ s, Text.isBlank c) : IsGap s
  | named {clause blanks : List Char} (hc : IsSpaced clause) (hne : blanks ≠ [])
      (hb : ∀ c ∈ blanks, Text.isBlank c) : IsGap (clause ++ ("from".toList ++ blanks))

theorem not_isBlank_of_mem_from {c : Char} (h : c ∈ "from".toList) : Text.isBlank c = false := by
  have hall : "from".toList.all fun c => !Text.isBlank c := by decide
  simpa using List.all_eq_true.mp hall c h

theorem isGap_of_blank {s : List Char} (hne : s ≠ []) (hs : ∀ c ∈ s, Text.isBlank c) :
    isGap s = true := by
  have hr : ∀ c ∈ s.reverse, Text.isBlank c := fun c hc => hs c (List.mem_reverse.mp hc)
  simp [isGap, List.takeWhile_eq_self_iff.mpr hr, List.dropWhile_eq_nil_iff.mpr hr, hne]

theorem isGap_named (clause : List Char) {blanks : List Char} (hb : ∀ c ∈ blanks, Text.isBlank c) :
    isGap (clause ++ ("from".toList ++ blanks)) = true ↔ IsSpaced clause ∧ blanks ≠ [] := by
  have hr : ∀ c ∈ blanks.reverse, Text.isBlank c := fun c hc => hb c (List.mem_reverse.mp hc)
  have hreverse : (clause ++ ("from".toList ++ blanks)).reverse =
      blanks.reverse ++ ("from".toList.reverse ++ clause.reverse) := by simp
  have htake : ("from".toList.reverse ++ clause.reverse).takeWhile Text.isBlank = [] := rfl
  have hdrop : ("from".toList.reverse ++ clause.reverse).dropWhile Text.isBlank =
      "from".toList.reverse ++ clause.reverse := rfl
  have hempty : ("from".toList.reverse ++ clause.reverse).isEmpty = false := rfl
  simp only [isGap, hreverse, List.takeWhile_append_of_pos hr, List.dropWhile_append_of_pos hr,
    htake, hdrop, hempty, Text.dropLead?_append, List.append_nil]
  cases hbr : blanks.reverse with
  | nil =>
    have hnil : blanks = [] := List.reverse_eq_nil_iff.mp hbr
    simp [hnil]
  | cons c cs =>
    have hne : blanks ≠ [] := by
      rintro rfl
      cases hbr
    simp only [Bool.false_eq_true, if_false, Bool.and_eq_true, decide_eq_true_eq,
      List.length_reverse, List.head?_reverse, List.getLast?_reverse]
    constructor
    · rintro ⟨⟨hl, hlast⟩, hhead⟩
      exact ⟨⟨hl, hhead, hlast⟩, hne⟩
    · rintro ⟨hc, -⟩
      exact ⟨⟨hc.length_le, hc.last⟩, hc.head⟩

theorem isGap_iff {s : List Char} : isGap s = true ↔ IsGap s := by
  constructor
  · intro h
    have hs : s.reverse = s.reverse.takeWhile Text.isBlank ++ s.reverse.dropWhile Text.isBlank :=
      List.takeWhile_append_dropWhile.symm
    have hb : ∀ c ∈ s.reverse.takeWhile Text.isBlank, Text.isBlank c :=
      fun c hc => List.mem_takeWhile_imp hc
    have h' := h
    unfold isGap at h'
    generalize s.reverse.takeWhile Text.isBlank = blanks at hs hb h'
    generalize s.reverse.dropWhile Text.isBlank = before at hs h'
    simp only at h'
    split at h'
    · rename_i hbefore
      rw [List.isEmpty_iff.mp hbefore, List.append_nil] at hs
      refine .blank ?_ fun c hc => hb c (hs ▸ List.mem_reverse.mpr hc)
      rintro rfl
      simp [← hs] at h'
    · split at h'
      · rename_i blank blanks' clause hd
        have hclause := Text.eq_append_of_dropLead? hd
        rw [hclause] at hs
        have hrev := congrArg List.reverse hs
        simp only [List.reverse_reverse, List.reverse_append, List.append_assoc] at hrev
        have hblanks : ∀ c ∈ (blank :: blanks').reverse, Text.isBlank c :=
          fun c hc => hb c (List.mem_reverse.mp hc)
        rw [hrev] at h ⊢
        obtain ⟨hc, hne⟩ := (isGap_named _ hblanks).mp h
        exact .named hc hne hblanks
      · cases h'
  · intro h
    cases h with
    | blank hne hs => exact isGap_of_blank hne hs
    | named hc hne hb => exact (isGap_named _ hb).mpr ⟨hc, hne⟩

theorem not_forall_isBlank_append_from (s t : List Char) :
    ¬ ∀ c ∈ s ++ ("from".toList ++ t), Text.isBlank c := by
  intro h
  have hf := h 'f' (List.mem_append_right _ (List.mem_append_left _ (by decide)))
  exact absurd hf (by decide)

theorem isSpaced_iff_of_blank {s : List Char} (hs : ∀ c ∈ s, Text.isBlank c) :
    IsSpaced s ↔ 3 ≤ s.length := by
  refine ⟨fun h => h.length_le, fun h => ⟨h, ?_, ?_⟩⟩
  · cases hc : s.head? with
    | none => simp [List.head?_eq_none_iff.mp hc] at h
    | some c => exact hs c (List.mem_of_head? hc)
  · cases hc : s.getLast? with
    | none => simp [List.getLast?_eq_none_iff.mp hc] at h
    | some c => exact hs c (List.mem_of_getLast? hc)

theorem IsSpaced.of_ne_blank {s : List Char} (hhead : s.head?.any Text.isBlank)
    (hlast : s.getLast?.any Text.isBlank) (h : ¬ ∀ c ∈ s, Text.isBlank c) : IsSpaced s where
  length_le := by
    match s, h with
    | [], h => simp at h
    | [a], h => simp_all
    | [a, b], h => simp_all
    | a :: b :: c :: s, _ => simp
  head := hhead
  last := hlast

section Append

variable {x y : List Char} (hx : x.getLast?.any Text.isBlank)

include hx

theorem append_eq_append_from_iff {clause blanks : List Char} :
    x ++ y = clause ++ ("from".toList ++ blanks) ↔
      (∃ t, clause = x ++ t ∧ y = t ++ ("from".toList ++ blanks)) ∨
      ∃ t, x = clause ++ ("from".toList ++ t) ∧ blanks = t ++ y := by
  constructor
  · intro h
    rcases List.append_eq_append_iff.mp h with ⟨t, hc, hy⟩ | ⟨t, hxt, ht⟩
    · exact .inl ⟨t, hc, hy⟩
    · rcases List.append_eq_append_iff.mp ht with ⟨u, hu, hb⟩ | ⟨u, hu, hy⟩
      · exact .inr ⟨u, by rw [hxt, hu], hb⟩
      · rcases List.eq_nil_or_concat t with rfl | ⟨t, c, rfl⟩
        · exact .inl ⟨[], by simpa using hxt.symm, by simpa using ht.symm⟩
        · have hc : c ∈ "from".toList := by simp [hu]
          simp [hxt, not_isBlank_of_mem_from hc] at hx
  · rintro (⟨t, rfl, rfl⟩ | ⟨t, rfl, rfl⟩)
    · simp
    · simp

theorem isGap_append_iff : IsGap (x ++ y) ↔
    (∀ c ∈ x ++ y, Text.isBlank c) ∨
    (∃ clause blanks, x = clause ++ ("from".toList ++ blanks) ∧ IsSpaced clause ∧
      ∀ c ∈ blanks ++ y, Text.isBlank c) ∨
    ∃ t blanks, y = t ++ ("from".toList ++ blanks) ∧ IsSpaced (x ++ t) ∧ blanks ≠ [] ∧
      ∀ c ∈ blanks, Text.isBlank c := by
  constructor
  · intro h
    generalize hs : x ++ y = s at h
    cases h with
    | blank _ hb => exact .inl hb
    | @named clause blanks hc hne hb =>
      rcases (append_eq_append_from_iff hx).mp hs with ⟨t, rfl, hy⟩ | ⟨t, hxt, rfl⟩
      · exact .inr (.inr ⟨t, blanks, hy, hc, hne, hb⟩)
      · exact .inr (.inl ⟨clause, t, hxt, hc, hb⟩)
  · rintro (hb | ⟨clause, blanks, rfl, hc, hb⟩ | ⟨t, blanks, rfl, hc, hne, hb⟩)
    · refine .blank ?_ hb
      rintro hnil
      simp [(List.append_eq_nil_iff.mp hnil).1] at hx
    · have hne : blanks ++ y ≠ [] := by
        intro hnil
        rw [(List.append_eq_nil_iff.mp hnil).1] at hx
        simp at hx
        exact absurd hx (by decide)
      have hs := IsGap.named hc hne hb
      simpa using hs
    · have hs := IsGap.named hc hne hb
      simpa using hs

theorem ne_nil_of_getLast?_any : x ≠ [] := by
  rintro rfl
  simp at hx

theorem head?_append_of_last (y : List Char) : (x ++ y).head? = x.head? :=
  List.head?_append_of_ne_nil _ (ne_nil_of_getLast?_any hx)

theorem isSpaced_append_iff (hhead : x.head?.any Text.isBlank) (hne : ¬ ∀ c ∈ x, Text.isBlank c)
    (t : List Char) : IsSpaced (x ++ t) ↔ ∀ c ∈ t.getLast?, Text.isBlank c := by
  have hall : ¬ ∀ c ∈ x ++ t, Text.isBlank c := fun h => hne fun c hc => h c (List.mem_append_left t hc)
  have hlast : (x ++ t).getLast?.any Text.isBlank ↔ ∀ c ∈ t.getLast?, Text.isBlank c := by
    rcases List.eq_nil_or_concat t with rfl | ⟨t, c, rfl⟩
    · simpa using hx
    · simp [← List.append_assoc]
  rw [← hlast]
  refine ⟨fun h => h.last, fun h => .of_ne_blank ?_ h hall⟩
  rwa [head?_append_of_last hx]

theorem isGap_append_iff_of_ne_blank (hhead : x.head?.any Text.isBlank)
    (hne : ¬ ∀ c ∈ x, Text.isBlank c)
    (hfrom : (¬ ∀ c ∈ y, Text.isBlank c) ∨ ∀ clause blanks, (∀ c ∈ blanks, Text.isBlank c) →
      x ≠ clause ++ ("from".toList ++ blanks)) :
    IsGap (x ++ y) ↔ ∃ t blanks, y = t ++ ("from".toList ++ blanks) ∧
      (∀ c ∈ t.getLast?, Text.isBlank c) ∧ blanks ≠ [] ∧ ∀ c ∈ blanks, Text.isBlank c := by
  rw [isGap_append_iff hx]
  simp only [isSpaced_append_iff hx hhead hne]
  constructor
  · rintro (hb | ⟨clause, blanks, hxc, -, hb⟩ | h)
    · exact absurd (fun c hc => hb c (List.mem_append_left y hc)) hne
    · rw [List.forall_mem_append] at hb
      rcases hfrom with hy | hfrom
      · exact absurd hb.2 hy
      · exact absurd hxc (hfrom clause blanks hb.1)
    · exact h
  · exact fun h => .inr (.inr h)

theorem isSpaced_insert {b : List Char} (hb : ∀ c ∈ b, Text.isBlank c) {t : List Char}
    (h : ¬ ∀ c ∈ x ++ t, Text.isBlank c) : IsSpaced (x ++ (b ++ t)) ↔ IsSpaced (x ++ t) := by
  have hall : ¬ ∀ c ∈ x ++ (b ++ t), Text.isBlank c := by
    intro hall
    apply h
    simp only [List.forall_mem_append] at hall ⊢
    exact ⟨hall.1, hall.2.2⟩
  have hlast : (x ++ (b ++ t)).getLast?.any Text.isBlank ↔ (x ++ t).getLast?.any Text.isBlank := by
    rcases List.eq_nil_or_concat t with rfl | ⟨t, c, rfl⟩
    · rcases List.eq_nil_or_concat b with rfl | ⟨b, c, rfl⟩
      · simp
      · have hc : Text.isBlank c := hb c (by simp)
        simp [← List.append_assoc, hc, hx]
    · simp [← List.append_assoc]
  constructor
  · intro hs
    refine .of_ne_blank ?_ (hlast.mp hs.last) h
    have hhead := hs.head
    rwa [head?_append_of_last hx] at hhead ⊢
  · intro hs
    refine .of_ne_blank ?_ (hlast.mpr hs.last) hall
    have hhead := hs.head
    rwa [head?_append_of_last hx] at hhead ⊢

theorem isGap_insert {b : List Char} (hb : ∀ c ∈ b, Text.isBlank c)
    (h : ∀ blanks more, y = blanks ++ ("from".toList ++ more) →
      (∀ c ∈ x ++ blanks, Text.isBlank c) →
        3 ≤ (x ++ blanks).length ∨ (x ++ blanks).length + b.length < 3) :
    IsGap (x ++ (b ++ y)) ↔ IsGap (x ++ y) := by
  have hspaced : ∀ {t blanks : List Char}, y = t ++ ("from".toList ++ blanks) →
      (IsSpaced (x ++ (b ++ t)) ↔ IsSpaced (x ++ t)) := by
    intro t blanks hy
    by_cases hall : ∀ c ∈ x ++ t, Text.isBlank c
    · have hall' : ∀ c ∈ x ++ (b ++ t), Text.isBlank c := by
        simp only [List.forall_mem_append] at hall ⊢
        exact ⟨hall.1, hb, hall.2⟩
      have hcount := h t blanks hy hall
      rw [isSpaced_iff_of_blank hall, isSpaced_iff_of_blank hall']
      simp only [List.length_append] at hcount ⊢
      omega
    · exact isSpaced_insert hx hb hall
  have hword : ∀ {t blanks : List Char}, b ++ y = t ++ ("from".toList ++ blanks) ↔
      ∃ u, t = b ++ u ∧ y = u ++ ("from".toList ++ blanks) := by
    intro t blanks
    rcases List.eq_nil_or_concat b with rfl | ⟨b', c, rfl⟩
    · simp
    · have hlast : (b'.concat c).getLast?.any Text.isBlank := by simpa using hb c (by simp)
      rw [append_eq_append_from_iff hlast, or_iff_left]
      rintro ⟨u, hu, -⟩
      exact not_forall_isBlank_append_from t u (hu ▸ hb)
  rw [isGap_append_iff hx, isGap_append_iff hx]
  refine or_congr ?_ (or_congr ?_ ?_)
  · simp only [List.forall_mem_append]
    exact ⟨fun h => ⟨h.1, h.2.2⟩, fun h => ⟨h.1, hb, h.2⟩⟩
  · refine exists_congr fun clause => exists_congr fun blanks => and_congr_right fun _ =>
      and_congr_right fun _ => ?_
    simp only [List.forall_mem_append]
    exact ⟨fun h => ⟨h.1, h.2.2⟩, fun h => ⟨h.1, hb, h.2⟩⟩
  · constructor
    · rintro ⟨t, blanks, hy, hc, hrest⟩
      obtain ⟨u, rfl, hu⟩ := hword.mp hy
      exact ⟨u, blanks, hu, (hspaced hu).mp hc, hrest⟩
    · rintro ⟨t, blanks, hy, hc, hrest⟩
      exact ⟨b ++ t, blanks, hword.mpr ⟨t, rfl, hy⟩, (hspaced hy).mpr hc, hrest⟩

end Append

end WorkspaceCycles.Source
