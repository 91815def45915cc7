namespace WorkspaceCycles.Text

variable {α : Type _} [DecidableEq α]

def split (sep : α) : List α → List (List α)
  | [] => [[]]
  | c :: cs =>
    if c = sep then [] :: split sep cs
    else
      match split sep cs with
      | [] => [[c]]
      | piece :: pieces => (c :: piece) :: pieces

def join (sep : List α) : List (List α) → List α
  | [] => []
  | [piece] => piece
  | piece :: pieces => piece ++ sep ++ join sep pieces

theorem split_ne_nil (sep : α) (s : List α) : split sep s ≠ [] := by
  cases s with
  | nil => simp [split]
  | cons c cs => simp only [split]; split <;> (try split) <;> simp

theorem join_split (sep : α) (s : List α) : join [sep] (split sep s) = s := by
  induction s with
  | nil => rfl
  | cons c cs ih =>
    simp only [split]
    cases hs : split sep cs with
    | nil => exact absurd hs (split_ne_nil sep cs)
    | cons piece pieces =>
      rw [hs] at ih
      by_cases h : c = sep
      · simp [h, join, ih]
      · cases pieces <;> simp_all [join]

theorem split_append (sep : α) {piece : List α} (h : sep ∉ piece) (s : List α) :
    split sep (piece ++ sep :: s) = piece :: split sep s := by
  induction piece with
  | nil => simp [split]
  | cons c piece ih =>
    simp only [List.mem_cons, not_or] at h
    simp [split, ih h.2, Ne.symm h.1]

theorem split_of_not_mem (sep : α) {piece : List α} (h : sep ∉ piece) :
    split sep piece = [piece] := by
  induction piece with
  | nil => rfl
  | cons c piece ih =>
    simp only [List.mem_cons, not_or] at h
    simp [split, ih h.2, Ne.symm h.1]

theorem split_join (sep : α) {pieces : List (List α)} (hne : pieces ≠ [])
    (h : ∀ piece ∈ pieces, sep ∉ piece) : split sep (join [sep] pieces) = pieces := by
  induction pieces with
  | nil => exact absurd rfl hne
  | cons piece pieces ih =>
    cases pieces with
    | nil => exact split_of_not_mem sep (h piece (by simp))
    | cons next pieces =>
      simp only [join, List.append_assoc, List.singleton_append]
      rw [split_append sep (h piece (by simp)),
        ih (by simp) fun q hq => h q (List.mem_cons_of_mem _ hq)]

end WorkspaceCycles.Text
