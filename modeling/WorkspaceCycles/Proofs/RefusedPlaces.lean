import Mathlib
import WorkspaceCycles.FileTree.Search
import WorkspaceCycles.Proofs.FollowedLinks

/-!
Places that a search comes to. A search comes to its end exactly if each of them can be looked up.
-/

namespace WorkspaceCycles

namespace FileTree

/-- On its way along the steps from a folder the search looks up the place `q`. -/
inductive Visits (t : FileTree) (q : Path) : List SearchStep → Path → Prop
  | name {name : String} {steps : List SearchStep} {p : Path} (h : q = p.child name) :
      Visits t q (.name name :: steps) p
  | belowName {name : String} {steps : List SearchStep} {p : Path}
      (hfolder : t.isFolder (p.child name)) (h : Visits t q steps (p.child name)) :
      Visits t q (.name name :: steps) p
  | listed {pattern : String} {steps : List SearchStep} {p : Path} (h : q = p) :
      Visits t q (.glob pattern :: steps) p
  | link {pattern : String} {steps : List SearchStep} {p : Path} (hsteps : steps ≠ [])
      (h : q ∈ t.linksAt p) : Visits t q (.glob pattern :: steps) p
  | belowMatch {pattern name : String} {steps : List SearchStep} {p : Path}
      (hname : name ∈ (t.entriesAt p).map (·.1)) (hmatch : Glob.isMatch pattern name)
      (hfolder : t.isFolder (p.child name)) (h : Visits t q steps (p.child name)) :
      Visits t q (.glob pattern :: steps) p
  | folder {steps : List SearchStep} {p : Path} (h : q ∈ p :: t.foldersFrom p) :
      Visits t q (.anyFolders :: steps) p
  | belowFolder {steps : List SearchStep} {p r : Path} (hr : r ∈ p :: t.foldersFrom p)
      (h : Visits t q steps r) : Visits t q (.anyFolders :: steps) p

variable {t : FileTree} {steps : List SearchStep} {p : Path}

theorem isSome_stopOf?_name_iff {name : String} : (t.stopOf? (.name name :: steps) p).isSome ↔
    t.isRefused (p.child name) ∨
      t.isFolder (p.child name) ∧ (t.stopOf? steps (p.child name)).isSome := by
  simp only [stopOf?]
  cases t.isRefused (p.child name) <;> cases t.isFolder (p.child name) <;> simp

theorem isSome_stopOf?_glob_iff {pattern : String} :
    (t.stopOf? (.glob pattern :: steps) p).isSome ↔
      t.isRefused p ∨ (steps ≠ [] ∧ ∃ q ∈ t.linksAt p, t.isRefused q) ∨
        ∃ name ∈ (t.entriesAt p).map (·.1), Glob.isMatch pattern name ∧
          t.isFolder (p.child name) ∧ (t.stopOf? steps (p.child name)).isSome := by
  have hlinks : (∃ q ∈ if steps.isEmpty = true then [] else t.linksAt p, t.isRefused q = true) ↔
      steps ≠ [] ∧ ∃ q ∈ t.linksAt p, t.isRefused q = true := by
    cases steps <;> simp
  have hbelow : ∀ q, (if t.isFolder q = true then t.stopOf? steps q else none).isSome = true ↔
      t.isFolder q = true ∧ (t.stopOf? steps q).isSome = true := by
    intro q
    cases t.isFolder q <;> simp
  simp only [stopOf?]
  cases t.isRefused p with
  | true => simp
  | false =>
    simp only [Bool.false_eq_true, if_false, false_or, Option.isSome_or, Bool.or_eq_true,
      List.find?_isSome, List.findSome?_isSome_iff, hlinks, hbelow]
    generalize (t.entriesAt p).map (·.1) = names
    simp only [List.mem_map, List.mem_filter, exists_exists_and_eq_and]
    simp only [and_assoc]

theorem isSome_stopOf?_anyFolders_iff : (t.stopOf? (.anyFolders :: steps) p).isSome ↔
    ∃ r ∈ p :: t.foldersFrom p, t.isRefused r ∨ (t.stopOf? steps r).isSome := by
  have hfolder : ∀ r, (if t.isRefused r = true then some r else t.stopOf? steps r).isSome = true ↔
      t.isRefused r = true ∨ (t.stopOf? steps r).isSome = true := by
    intro r
    cases t.isRefused r <;> simp
  simp only [stopOf?, List.findSome?_isSome_iff, hfolder]

theorem isSome_stopOf?_iff :
    (t.stopOf? steps p).isSome ↔ ∃ q, t.Visits q steps p ∧ t.isRefused q := by
  induction steps generalizing p with
  | nil => exact ⟨fun h => (nomatch h), fun ⟨_, h, _⟩ => nomatch h⟩
  | cons step steps ih =>
    cases step with
    | name name =>
      rw [isSome_stopOf?_name_iff, ih]
      constructor
      · rintro (hrefused | ⟨hfolder, q, hq, hrefused⟩)
        · exact ⟨_, .name rfl, hrefused⟩
        · exact ⟨q, .belowName hfolder hq, hrefused⟩
      · rintro ⟨q, rfl | ⟨hfolder, hq⟩, hrefused⟩
        · exact .inl hrefused
        · exact .inr ⟨hfolder, q, hq, hrefused⟩
    | glob pattern =>
      rw [isSome_stopOf?_glob_iff]
      constructor
      · rintro (hrefused | ⟨hsteps, q, hq, hrefused⟩ | ⟨name, hname, hmatch, hfolder, h⟩)
        · exact ⟨p, .listed rfl, hrefused⟩
        · exact ⟨q, .link hsteps hq, hrefused⟩
        · obtain ⟨q, hq, hrefused⟩ := ih.mp h
          exact ⟨q, .belowMatch hname hmatch hfolder hq, hrefused⟩
      · rintro ⟨q, hvisits, hrefused⟩
        cases hvisits with
        | listed h => exact .inl (h ▸ hrefused)
        | link hsteps hq => exact .inr (.inl ⟨hsteps, q, hq, hrefused⟩)
        | belowMatch hname hmatch hfolder hq =>
          exact .inr (.inr ⟨_, hname, hmatch, hfolder, ih.mpr ⟨q, hq, hrefused⟩⟩)
    | anyFolders =>
      rw [isSome_stopOf?_anyFolders_iff]
      constructor
      · rintro ⟨r, hr, hrefused | h⟩
        · exact ⟨r, .folder hr, hrefused⟩
        · obtain ⟨q, hq, hrefused⟩ := ih.mp h
          exact ⟨q, .belowFolder hr hq, hrefused⟩
      · rintro ⟨q, hvisits, hrefused⟩
        cases hvisits with
        | folder hq => exact ⟨q, hq, .inl hrefused⟩
        | belowFolder hr hq => exact ⟨_, hr, .inr (ih.mpr ⟨q, hq, hrefused⟩)⟩

theorem exists_search_of_find {folder : Path} {pattern : String} {places : List Path}
    (h : t.find folder pattern = .ok places) :
    ∃ steps, SearchStep.ofPattern pattern = .ok steps ∧ t.search steps folder = places := by
  simp only [find] at h
  split at h
  · cases h
  obtain ⟨-, -, h⟩ := exists_of_bind_eq_ok h
  obtain ⟨steps, hsteps, h⟩ := exists_of_bind_eq_ok h
  split at h
  · cases h
  · cases h
    exact ⟨steps, hsteps, rfl⟩

theorem find_eq_search {folder : Path} {pattern : String}
    (hdeep : t.limits.isTooDeep (Path.ofString pattern) folder = false)
    (hsteps : SearchStep.ofPattern pattern = .ok steps) (hstop : t.stopOf? steps folder = none) :
    t.find folder pattern = .ok (t.search steps folder) := by
  simp only [find, hdeep, Bool.false_eq_true, if_false, hsteps, hstop, bind, Except.bind, pure,
    Except.pure]

end FileTree

def Limits.unlimited : Limits where
  isLongName _ := false
  isLongPath _ := false
  isTooDeep _ _ := false

namespace FileTree

variable {t : FileTree}

theorem locate_ne_nameTooLong (h : t.limits = .unlimited) (links : Nat)
    (place names : List String) : t.locate links place names ≠ .error .nameTooLong := by
  fun_induction locate t links place names with
  | case1 | case4 | case7 | case8 => simp
  | case2 _ _ _ _ _ ih => exact ih
  | case5 _ _ _ _ _ _ _ _ _ ih => exact ih
  | case6 _ _ _ _ _ _ _ _ _ _ _ ih => exact ih
  | case3 =>
    rw [absence, h]
    intro hlong
    cases hlong

theorem isRefused_of_unlimited (h : t.limits = .unlimited) (p : Path) : t.isRefused p = false := by
  have hnode : t.node p ≠ .error .nameTooLong := by
    intro hn
    rcases bind_eq_error.mp hn with hn | ⟨place, -, hn⟩
    · exact locate_ne_nameTooLong h _ _ _ hn
    · split at hn <;> cases hn
  unfold isRefused
  split
  · exact absurd ‹_› hnode
  · rw [h]
    simp [Limits.unlimited]

theorem stopOf?_of_unlimited (h : t.limits = .unlimited) (steps : List SearchStep) (p : Path) :
    t.stopOf? steps p = none := by
  rw [← Option.not_isSome_iff_eq_none, isSome_stopOf?_iff]
  rintro ⟨q, -, hrefused⟩
  rw [isRefused_of_unlimited h] at hrefused
  cases hrefused

theorem find_of_unlimited (h : t.limits = .unlimited) {pattern : String} {steps : List SearchStep}
    (hsteps : SearchStep.ofPattern pattern = .ok steps) (folder : Path) :
    t.find folder pattern = .ok (t.search steps folder) :=
  find_eq_search (by rw [h]; rfl) hsteps (stopOf?_of_unlimited h steps folder)

end FileTree

end WorkspaceCycles
