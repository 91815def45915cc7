namespace WorkspaceCycles.Text

def namesLe : List String → List String → Bool
  | [], _ => true
  | _ :: _, [] => false
  | x :: xs, y :: ys => x < y || (x == y && namesLe xs ys)

theorem namesLe_total (xs ys : List String) : namesLe xs ys || namesLe ys xs := by
  induction xs generalizing ys with
  | nil => simp [namesLe]
  | cons x xs ih =>
    cases ys with
    | nil => simp [namesLe]
    | cons y ys =>
      by_cases h : x = y
      · subst h
        simpa [namesLe, String.lt_irrefl] using ih ys
      · have hne : x < y ∨ y < x := by
          by_cases hlt : x < y
          · exact .inl hlt
          · by_cases hgt : y < x
            · exact .inr hgt
            · exact absurd (String.le_antisymm hgt hlt) h
        rcases hne with hlt | hgt
        · simp [namesLe, hlt]
        · simp [namesLe, hgt]

theorem namesLe_antisymm {xs ys : List String} (h : namesLe xs ys) (h' : namesLe ys xs) :
    xs = ys := by
  induction xs generalizing ys with
  | nil =>
    cases ys with
    | nil => rfl
    | cons => simp [namesLe] at h'
  | cons x xs ih =>
    cases ys with
    | nil => simp [namesLe] at h
    | cons y ys =>
      simp only [namesLe, Bool.or_eq_true, decide_eq_true_eq, Bool.and_eq_true, beq_iff_eq] at h h'
      rcases h with hlt | ⟨rfl, h⟩
      · rcases h' with hgt | ⟨rfl, -⟩
        · exact absurd hgt (String.lt_asymm hlt)
        · exact absurd hlt (String.lt_irrefl _)
      · rcases h' with hgt | ⟨-, h'⟩
        · exact absurd hgt (String.lt_irrefl _)
        · rw [ih h h']

theorem namesLe_trans {xs ys zs : List String} (h : namesLe xs ys) (h' : namesLe ys zs) :
    namesLe xs zs := by
  induction xs generalizing ys zs with
  | nil => rfl
  | cons x xs ih =>
    cases ys with
    | nil => simp [namesLe] at h
    | cons y ys =>
      cases zs with
      | nil => simp [namesLe] at h'
      | cons z zs =>
        simp only [namesLe, Bool.or_eq_true, decide_eq_true_eq, Bool.and_eq_true,
          beq_iff_eq] at h h' ⊢
        rcases h with hxy | ⟨rfl, h⟩
        · rcases h' with hyz | ⟨rfl, -⟩
          · exact .inl (String.lt_trans hxy hyz)
          · exact .inl hxy
        · rcases h' with hyz | ⟨rfl, h'⟩
          · exact .inl hyz
          · exact .inr ⟨rfl, ih h h'⟩

end WorkspaceCycles.Text
