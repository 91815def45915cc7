import WorkspaceCycles.Proofs.Statement

namespace WorkspaceCycles.Source

theorem isBlank_eq_false {c : Char} (h : 33 ≤ c.toNat) (h' : c.toNat ≤ 126) :
    Text.isBlank c = false := by
  simp only [Text.isBlank, Text.isSpace, Bool.or_eq_false_iff, Bool.and_eq_false_iff,
    decide_eq_false_iff_not, beq_eq_false_iff_ne]
  omega

theorem toNat_of_isIdentifierChar {c : Char} (h : isIdentifierChar c) :
    33 ≤ c.toNat ∧ c.toNat ≤ 126 := by
  change (((decide (65 ≤ c.val ∧ c.val ≤ 90) ||
    (decide (97 ≤ c.val) && decide (c.val ≤ 122))) ||
    (decide (48 ≤ c.val) && decide (c.val ≤ 57)) || c == '_') || c == '$') = true at h
  simp only [Bool.or_eq_true, Bool.and_eq_true, decide_eq_true_eq, beq_iff_eq,
    UInt32.le_iff_toNat_le] at h
  change ((((65 ≤ c.toNat ∧ c.toNat ≤ 90) ∨ (97 ≤ c.toNat ∧ c.toNat ≤ 122)) ∨
    (48 ≤ c.toNat ∧ c.toNat ≤ 57)) ∨ c = '_') ∨ c = '$' at h
  rcases h with (h | rfl) | rfl
  · omega
  · decide
  · decide

theorem not_isBlank_of_isIdentifierChar {c : Char} (h : isIdentifierChar c) :
    Text.isBlank c = false :=
  isBlank_eq_false (toNat_of_isIdentifierChar h).1 (toNat_of_isIdentifierChar h).2

def isPrintedChar (c : Char) : Bool :=
  isIdentifierChar c || [' ', '*', '\x7b', '\x7d', ','].contains c

theorem isPrintedChar_of_isIdentifierChar {c : Char} (h : isIdentifierChar c) :
    isPrintedChar c := by
  simp [isPrintedChar, h]

theorem isClauseChar_of_isPrintedChar {c : Char} (h : isPrintedChar c) : isClauseChar c := by
  simp only [isPrintedChar, Bool.or_eq_true, List.contains_eq_mem, decide_eq_true_eq] at h
  rcases h with h | h
  · have hlt : c.toNat < 0x80 := by
      have := toNat_of_isIdentifierChar h
      omega
    simp only [isIdentifierChar, Bool.or_eq_true, beq_iff_eq] at h
    rcases h with (h | rfl) | rfl
    · simp [isClauseChar, Text.isWord, hlt, h]
    · decide
    · decide
  · exact List.all_eq_true.mp (by decide) c h

structure IsClauseText (s : List Char) : Prop where
  ne_nil : s ≠ []
  chars : ∀ c ∈ s, isPrintedChar c
  head : ∀ c ∈ s.head?, Text.isBlank c = false
  no_type : ∀ rest, s = "type".toList ++ rest → ∀ c ∈ rest.head?, Text.isBlank c = false

theorem Identifier.isPrintedChar (i : Identifier) : ∀ c ∈ i.text, isPrintedChar c :=
  fun c hc => isPrintedChar_of_isIdentifierChar (i.chars c hc)

theorem bindingText_chars (b : Binding) : ∀ c ∈ b.text, isPrintedChar c := by
  have has : ∀ c ∈ " as ".toList, isPrintedChar c := List.all_eq_true.mp (by decide)
  unfold Binding.text
  split
  · exact b.name.isPrintedChar
  · rename_i other _
    rw [List.forall_mem_append, List.forall_mem_append]
    exact ⟨⟨b.name.isPrintedChar, has⟩, other.isPrintedChar⟩

theorem bindingsText_chars (bs : List Binding) : ∀ c ∈ bindingsText bs, isPrintedChar c := by
  have hcomma : ∀ c ∈ ", ".toList, isPrintedChar c := List.all_eq_true.mp (by decide)
  have hopen : ∀ c ∈ "\x7b ".toList, isPrintedChar c := List.all_eq_true.mp (by decide)
  have hclose : ∀ c ∈ " \x7d".toList, isPrintedChar c := List.all_eq_true.mp (by decide)
  cases bs with
  | nil => exact List.all_eq_true.mp (by decide)
  | cons b bs =>
    have hothers : ∀ c ∈ bs.flatMap (", ".toList ++ ·.text), isPrintedChar c := by
      intro c hc
      obtain ⟨other, -, hc⟩ := List.mem_flatMap.mp hc
      exact List.forall_mem_append.mpr ⟨hcomma, bindingText_chars other⟩ c hc
    rw [bindingsText, List.forall_mem_append, List.forall_mem_append, List.forall_mem_append]
    exact ⟨⟨⟨hopen, bindingText_chars b⟩, hothers⟩, hclose⟩

theorem head?_bindingsText (bs : List Binding) : (bindingsText bs).head? = some '\x7b' := by
  cases bs <;> rfl

theorem bindingsText_eq_cons (bs : List Binding) : ∃ s, bindingsText bs = '\x7b' :: s :=
  List.head?_eq_some_iff.mp (head?_bindingsText bs)

theorem isClauseText_of_head {c : Char} {s : List Char} (hs : ∀ x ∈ c :: s, isPrintedChar x)
    (hb : Text.isBlank c = false) (ht : c ≠ 't') : IsClauseText (c :: s) where
  ne_nil := by simp
  chars := hs
  head := by simpa using hb
  no_type := by
    intro rest h
    have hc : c = 't' := (List.cons.inj h).1
    exact absurd hc ht

theorem isClauseText_of_identifier (i : Identifier) {s : List Char}
    (hs : ∀ c ∈ s, isPrintedChar c) (hh : ∀ c ∈ s.head?, c = ',') : IsClauseText (i.text ++ s) where
  ne_nil := by simp [i.ne_nil]
  chars := List.forall_mem_append.mpr ⟨i.isPrintedChar, hs⟩
  head := by
    obtain ⟨a, as, ha⟩ := List.exists_cons_of_ne_nil i.ne_nil
    rw [ha]
    have hm := i.chars a (by simp [ha])
    simpa using not_isBlank_of_isIdentifierChar hm
  no_type := by
    have hcomma : ∀ c ∈ s.head?, Text.isBlank c = false := by
      intro c hc
      rw [hh c hc]
      decide
    intro rest h
    -- the identifier is a part of the word `type`, or it goes on behind it
    rcases List.append_eq_append_iff.mp h with ⟨t, ht, hrest⟩ | ⟨t, ht, rfl⟩
    · cases t with
      | nil => rwa [hrest] at hcomma
      | cons a t =>
        have ha : a ∈ "type".toList := by simp [ht]
        rw [hh a (by simp [hrest])] at ha
        exact absurd ha (by decide)
    · cases t with
      | nil => exact hcomma
      | cons a t =>
        intro c hc
        obtain rfl : a = c := by simpa using hc
        exact not_isBlank_of_isIdentifierChar (i.chars a (by simp [ht]))

theorem isClauseText_bindingsText (bs : List Binding) : IsClauseText (bindingsText bs) := by
  obtain ⟨s, hs⟩ := bindingsText_eq_cons bs
  rw [hs]
  exact isClauseText_of_head (hs ▸ bindingsText_chars bs) (by decide) (by decide)

theorem Clause.isClauseText (clause : Clause) : IsClauseText clause.text := by
  cases clause with
  | default name =>
    have h := isClauseText_of_identifier name (s := []) (by simp) (by simp)
    rwa [List.append_nil] at h
  | whole name =>
    apply isClauseText_of_head (c := '*') (s := " as ".toList ++ name.text)
    · have has : ∀ c ∈ '*' :: " as ".toList, isPrintedChar c := List.all_eq_true.mp (by decide)
      rw [← List.cons_append]
      exact List.forall_mem_append.mpr ⟨has, name.isPrintedChar⟩
    · decide
    · decide
  | named bindings => exact isClauseText_bindingsText bindings
  | both name bindings =>
    rw [Clause.text, List.append_assoc]
    apply isClauseText_of_identifier
    · have hcomma : ∀ c ∈ ", ".toList, isPrintedChar c := List.all_eq_true.mp (by decide)
      exact List.forall_mem_append.mpr ⟨hcomma, bindingsText_chars bindings⟩
    · intro c hc
      cases hc
      rfl

theorem isGap_append_from (s : List Char) :
    isGap (s ++ " from ".toList) = (decide (2 ≤ s.length) && s.head?.any Text.isBlank) := by
  have hr : (s ++ " from ".toList).reverse =
      ' ' :: ("from".toList.reverse ++ ' ' :: s.reverse) := by simp
  have ht : (s ++ " from ".toList).reverse.takeWhile Text.isBlank = [' '] := by
    rw [hr]
    rfl
  have hd : (s ++ " from ".toList).reverse.dropWhile Text.isBlank =
      "from".toList.reverse ++ ' ' :: s.reverse := by
    rw [hr]
    rfl
  have hblank : Text.isBlank ' ' = true := by decide
  unfold isGap
  rw [ht, hd]
  simp only [Text.dropLead?_append]
  cases s with
  | nil => rfl
  | cons c s =>
    simp [hblank, List.getLast?_cons]

theorem isGap_cons_append_from {s : List Char} (h : s ≠ []) :
    isGap (' ' :: s ++ " from ".toList) = true := by
  have hl := List.length_pos_iff.mpr h
  rw [isGap_append_from, Bool.and_eq_true, decide_eq_true_eq, List.length_cons]
  exact ⟨by omega, rfl⟩

theorem trimStart_of_head {s : List Char} (h : ∀ c ∈ s.head?, Text.isBlank c = false) :
    Text.trimStart s = s := by
  cases s with
  | nil => rfl
  | cons c s => rw [Text.trimStart, List.dropWhile_cons_of_neg (by simp [h c rfl])]

theorem isGap_behind_type {s rest : List Char} (h : IsClauseText s)
    (he : s ++ " from ".toList = "type".toList ++ rest) : isGap rest = false := by
  obtain ⟨t, hs, rfl⟩ : ∃ t, s = "type".toList ++ t ∧ rest = t ++ " from ".toList := by
    rcases List.append_eq_append_iff.mp he with ⟨t, ht, hrest⟩ | ⟨t, ht, hrest⟩
    · cases t with
      | nil => exact ⟨[], by simpa using ht.symm, by simpa using hrest.symm⟩
      | cons a t =>
        have ha : a ∈ "type".toList := by simp [ht]
        rw [← (List.cons.inj hrest).1] at ha
        exact absurd ha (by decide)
    · exact ⟨t, ht, hrest⟩
  rw [isGap_append_from]
  cases t with
  | nil => rfl
  | cons c t =>
    have hc := h.no_type _ hs c rfl
    simp [hc]

theorem typeOnly?_space (s : List Char) : typeOnly? (' ' :: s) =
    if (Text.dropLead? "type".toList (Text.trimStart s)).any isGap then some true
    else if isGap (' ' :: s) then some false
    else none := rfl

theorem typeOnly?_clause {s : List Char} (h : IsClauseText s) :
    typeOnly? (' ' :: s ++ " from ".toList) = some false := by
  have htrim : Text.trimStart (s ++ " from ".toList) = s ++ " from ".toList := by
    apply trimStart_of_head
    obtain ⟨c, t, rfl⟩ := List.exists_cons_of_ne_nil h.ne_nil
    exact h.head
  -- even a clause that begins with the name `type` leaves no gap behind it
  have hbehind : (Text.dropLead? "type".toList (s ++ " from ".toList)).any isGap = false := by
    cases hd : Text.dropLead? "type".toList (s ++ " from ".toList) with
    | none => rfl
    | some rest => exact isGap_behind_type h (Text.eq_append_of_dropLead? hd)
  rw [List.cons_append, typeOnly?_space, htrim, hbehind, ← List.cons_append,
    isGap_cons_append_from h.ne_nil]
  rfl

theorem typeOnly?_type_clause {s : List Char} (h : IsClauseText s) :
    typeOnly? (" type ".toList ++ s ++ " from ".toList) = some true := by
  have hs : " type ".toList ++ s ++ " from ".toList =
      ' ' :: ("type".toList ++ (' ' :: s ++ " from ".toList)) := rfl
  have htrim : Text.trimStart ("type".toList ++ (' ' :: s ++ " from ".toList)) =
      "type".toList ++ (' ' :: s ++ " from ".toList) := rfl
  rw [hs, typeOnly?_space, htrim, Text.dropLead?_append, Option.any_some,
    isGap_cons_append_from h.ne_nil]
  rfl

end WorkspaceCycles.Source
