import WorkspaceCycles.Cycle
import WorkspaceCycles.Json

namespace WorkspaceCycles.Cycle

def ofJson? : Json → Option Cycle
  | .list (item :: items) => (item :: items).mapM Json.text?
  | _ => none

def allOfJson : Json → List Cycle
  | .list entries => entries.filterMap ofJson?
  | _ => []

structure IsEntry (c : Cycle) (v : Json) : Prop where
  ne_nil : c ≠ []
  eq_list : v = .list (c.map .text)

theorem mapM_text?_eq_some_iff {items : List Json} {c : Cycle} :
    items.mapM Json.text? = some c ↔ items = c.map .text := by
  induction items generalizing c with
  | nil => cases c <;> simp
  | cons item items ih =>
    rw [List.mapM_cons]
    constructor
    · intro h
      obtain ⟨a, ha, h⟩ := Option.bind_eq_some_iff.mp h
      obtain ⟨as, has, h⟩ := Option.bind_eq_some_iff.mp h
      cases h
      cases item with
      | text s =>
        cases ha
        rw [List.map_cons, ← ih.mp has]
      | _ => cases ha
    · rintro h
      cases c with
      | nil => cases h
      | cons a as =>
        cases h
        have has := ih.mpr rfl
        simp [Json.text?, has]

theorem ofJson?_eq_some_iff {v : Json} {c : Cycle} : ofJson? v = some c ↔ c.IsEntry v := by
  constructor
  · intro h
    unfold ofJson? at h
    split at h
    · rename_i item items
      have hitems := mapM_text?_eq_some_iff.mp h
      refine ⟨?_, by rw [hitems]⟩
      rintro rfl
      cases hitems
    · cases h
  · rintro ⟨hne, rfl⟩
    cases c with
    | nil => exact absurd rfl hne
    | cons a as => exact mapM_text?_eq_some_iff.mpr rfl

end WorkspaceCycles.Cycle
