import WorkspaceCycles.Settings.Reading

namespace WorkspaceCycles

namespace Validated

variable {α β : Type}

theorem map_eq_valid {f : α → β} {v : Validated α} {b : β} :
    f <$> v = .valid b ↔ ∃ a, v = .valid a ∧ f a = b := by
  change Validated.map f v = .valid b ↔ _
  cases v <;> simp [Validated.map]

theorem seq_eq_valid {f : Validated (α → β)} {v : Validated α} {b : β} :
    f <*> v = .valid b ↔ ∃ g a, f = .valid g ∧ v = .valid a ∧ g a = b := by
  change apply f v = .valid b ↔ _
  cases f <;> cases v <;> simp [apply]

theorem inside_eq_valid {name : String} {v : Validated α} {a : α} :
    v.inside name = .valid a ↔ v = .valid a := by
  cases v <;> simp [inside]

theorem check_eq_valid {ok : α → Bool} {message : α → String} {v : Validated α} {a : α} :
    v.check ok message = .valid a ↔ v = .valid a ∧ ok a := by
  cases v with
  | valid b =>
    simp only [check]
    split
    · rename_i h
      constructor
      · intro hb
        cases hb
        exact ⟨rfl, h⟩
      · exact And.left
    · rename_i h
      constructor
      · intro hb
        cases hb
      · rintro ⟨hb, ha⟩
        cases hb
        exact absurd ha h
  | invalid => simp [check]

end Validated

namespace Validation

variable {α : Type}

theorem withDefault_eq_valid {n : FieldName} {rule : Rule α} {absent a : α} {fields : Fields}
    (h : withDefault n rule absent fields = .valid a) : a = absent ∨ ∃ v, rule v = .valid a := by
  unfold withDefault at h
  split at h
  · rename_i v _
    exact .inr ⟨v, Validated.inside_eq_valid.mp h⟩
  · cases h
    exact .inl rfl

theorem record_eq_valid {kind : String} {rule : Fields → Validated α} {v : Value} {a : α}
    (h : record kind rule v = .valid a) : ∃ fields, rule fields = .valid a := by
  unfold record at h
  split at h
  · exact ⟨_, h⟩
  · cases h

theorem items_eq_valid {rule : Rule α} {index : Nat} {vs : List Value} {xs : List α}
    (h : items rule index vs = .valid xs) : ∀ x ∈ xs, ∃ v ∈ vs, rule v = .valid x := by
  induction vs generalizing index xs with
  | nil =>
    cases h
    simp
  | cons v vs ih =>
    rw [items] at h
    obtain ⟨g, ys, hg, hys, rfl⟩ := Validated.seq_eq_valid.mp h
    obtain ⟨y, hy, rfl⟩ := Validated.map_eq_valid.mp hg
    refine List.forall_mem_cons.mpr ⟨⟨v, List.mem_cons_self, Validated.inside_eq_valid.mp hy⟩, ?_⟩
    intro x hx
    obtain ⟨w, hw, hwx⟩ := ih hys x hx
    exact ⟨w, List.mem_cons_of_mem _ hw, hwx⟩

theorem list_eq_valid {rule : Rule α} {v : Value} {xs : List α} (h : list rule v = .valid xs) :
    ∀ x ∈ xs, ∃ w, rule w = .valid x := by
  have hitems : ∀ vs, items rule 0 vs = .valid xs → ∀ x ∈ xs, ∃ w, rule w = .valid x := by
    intro vs hvs x hx
    obtain ⟨w, -, hw⟩ := items_eq_valid hvs x hx
    exact ⟨w, hw⟩
  unfold list at h
  split at h
  · exact hitems _ h
  · exact hitems _ h
  · cases h

theorem atLeast_eq_valid {count : Nat} {rule : Rule (List α)} {v : Value} {xs : List α}
    (h : atLeast count rule v = .valid xs) : count ≤ xs.length := by
  have hcount := (Validated.check_eq_valid.mp h).2
  simpa using hcount

end Validation

open Validation Validated

structure CircularSettings.IsValid (s : CircularSettings) : Prop where
  cycleLength : 1 ≤ s.native.maxCycleLength
  timeout : 0.0 < s.analyzerTimeout
  packageSets : ∀ names ∈ s.ignorePackageCycles, 2 ≤ names.length

theorem CircularSettings.isValid_default : ({} : CircularSettings).IsValid where
  cycleLength := by decide
  timeout := by decide +kernel
  packageSets := by simp

theorem NativeOptions.one_le_of_rule {v : Value} {o : NativeOptions} (h : rule v = .valid o) :
    1 ≤ o.maxCycleLength := by
  obtain ⟨fields, h⟩ := record_eq_valid h
  simp only [seq_eq_valid, map_eq_valid] at h
  obtain ⟨_, n, ⟨_, _, ⟨_, -, rfl⟩, -, rfl⟩, hn, rfl⟩ := h
  rcases withDefault_eq_valid hn with rfl | ⟨w, hw⟩
  · exact CircularSettings.isValid_default.cycleLength
  · have hone := (check_eq_valid.mp hw).2
    simpa using hone

theorem CircularSettings.isValid_of_rule {v : Value} {s : CircularSettings}
    (h : rule v = .valid s) : s.IsValid := by
  obtain ⟨fields, h⟩ := record_eq_valid h
  simp only [seq_eq_valid, map_eq_valid] at h
  obtain ⟨_, timeout, ⟨_, native, ⟨_, _, ⟨_, _, ⟨_, _, ⟨_, _, ⟨_, sets, ⟨_, _, ⟨_, _, ⟨_, _, ⟨_, _,
    ⟨_, _, ⟨_, _, ⟨_, -, rfl⟩, -, rfl⟩, -, rfl⟩, -, rfl⟩, -, rfl⟩, -, rfl⟩, -, rfl⟩, hsets, rfl⟩, -,
    rfl⟩, -, rfl⟩, -, rfl⟩, -, rfl⟩, hnative, rfl⟩, htimeout, rfl⟩ := h
  constructor
  · rcases withDefault_eq_valid hnative with rfl | ⟨w, hw⟩
    · exact isValid_default.cycleLength
    · exact NativeOptions.one_le_of_rule hw
  · rcases withDefault_eq_valid htimeout with rfl | ⟨w, hw⟩
    · exact isValid_default.timeout
    · simpa using (check_eq_valid.mp hw).2
  · rcases withDefault_eq_valid hsets with rfl | ⟨w, hw⟩
    · exact isValid_default.packageSets
    · intro names hn
      obtain ⟨u, hu⟩ := list_eq_valid hw names hn
      exact atLeast_eq_valid hu

theorem Settings.isValid_of_rule {v : Value} {s : Settings} (h : rule v = .valid s) :
    s.circular.IsValid := by
  obtain ⟨fields, h⟩ := record_eq_valid h
  simp only [seq_eq_valid, map_eq_valid] at h
  obtain ⟨_, circular, ⟨_, -, rfl⟩, hc, rfl⟩ := h
  rcases withDefault_eq_valid hc with rfl | ⟨w, hw⟩
  · exact CircularSettings.isValid_default
  · exact CircularSettings.isValid_of_rule hw

end WorkspaceCycles
