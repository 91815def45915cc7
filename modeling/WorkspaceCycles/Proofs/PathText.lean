import Mathlib.Data.List.Infix
import WorkspaceCycles.FileTree

namespace WorkspaceCycles

theorem Text.join_eq_intercalate {α : Type} (sep : List α) (pieces : List (List α)) :
    join sep pieces = sep.intercalate pieces := by
  fun_induction join sep pieces with
  | case1 => simp
  | case2 piece => simp
  | case3 piece pieces hne ih =>
    cases pieces with
    | nil => exact absurd rfl hne
    | cons next pieces => rw [ih, List.intercalate_cons_cons, List.append_assoc]

namespace Path

theorem join_nil (p : Path) : p.join ⟨.relative, []⟩ = p :=
  congrArg (mk p.anchor) (List.append_nil p.parts)

theorem join_join (p : Path) (names more : List String) :
    (p.join ⟨.relative, names⟩).join ⟨.relative, more⟩ = p.join ⟨.relative, names ++ more⟩ :=
  congrArg (mk p.anchor) (List.append_assoc p.parts names more)

theorem child_join (p : Path) (name : String) (names : List String) :
    (p.child name).join ⟨.relative, names⟩ = p.join ⟨.relative, name :: names⟩ :=
  p.join_join [name] names

theorem below?_join (p : Path) (names : List String) :
    (p.join ⟨.relative, names⟩).below? p = some names := by
  change (if p.anchor = p.anchor ∧ p.parts <+: p.parts ++ names then
    some ((p.parts ++ names).drop p.parts.length) else none) = some names
  rw [if_pos ⟨rfl, List.prefix_append _ _⟩, List.drop_left]

theorem below?_eq_some_iff {p folder : Path} {names : List String} :
    p.below? folder = some names ↔ p = folder.join ⟨.relative, names⟩ := by
  constructor
  · intro h
    unfold below? at h
    split at h
    · rename_i hp
      obtain ⟨rest, hrest⟩ := hp.2
      cases h
      change p = ⟨folder.anchor, folder.parts ++ p.parts.drop folder.parts.length⟩
      rw [← hrest, List.drop_left, hrest, ← hp.1]
    · cases h
  · rintro rfl
    exact below?_join folder names

structure IsName (s : String) : Prop where
  ne_empty : s ≠ ""
  ne_dot : s ≠ "."
  ne_dots : s ≠ ".."
  slashless : '/' ∉ s.toList
  without_null : '\x00' ∉ s.toList

instance (s : String) : Decidable (IsName s) :=
  decidable_of_iff (s ≠ "" ∧ s ≠ "." ∧ s ≠ ".." ∧ '/' ∉ s.toList ∧ '\x00' ∉ s.toList)
    ⟨fun ⟨he, hd, hds, hs, hn⟩ => ⟨he, hd, hds, hs, hn⟩,
      fun h => ⟨h.ne_empty, h.ne_dot, h.ne_dots, h.slashless, h.without_null⟩⟩

structure IsNormal (p : Path) : Prop where
  anchor_eq : p.anchor = .root
  isName : ∀ name ∈ p.parts, IsName name

instance (p : Path) : Decidable p.IsNormal :=
  decidable_of_iff (p.anchor = .root ∧ ∀ name ∈ p.parts, IsName name)
    ⟨fun ⟨ha, hn⟩ => ⟨ha, hn⟩, fun h => ⟨h.anchor_eq, h.isName⟩⟩

def IsStep (s : String) : Prop := s ≠ "" ∧ '/' ∉ s.toList

theorem IsName.isStep {s : String} (h : IsName s) : IsStep s := ⟨h.ne_empty, h.slashless⟩

theorem isStep_dot : IsStep "." := ⟨by decide, by decide⟩

theorem isStep_dots : IsStep ".." := ⟨by decide, by decide⟩

theorem toList_relativeText {steps : List String} (hne : steps ≠ []) :
    (relativeText steps).toList = Text.join ['/'] (steps.map String.toList) := by
  rw [relativeText, text, if_neg (by simp [hne]), Text.join_eq_intercalate]
  simp [Anchor.text, String.toList_intercalate]

theorem anchorOf_of_head {s : List Char} (h : s.head? ≠ some '/') : anchorOf s = .relative := by
  unfold anchorOf
  split
  · simp at h
  · simp at h
  · simp at h
  · rfl

theorem head?_relativeText {step : String} {steps : List String} (h : IsStep step) :
    (relativeText (step :: steps)).toList.head? = step.toList.head? := by
  rw [toList_relativeText (by simp)]
  have hne : step.toList ≠ [] := by simpa using h.1
  cases steps with
  | nil => rfl
  | cons next steps =>
    simp only [List.map_cons, Text.join, List.append_assoc]
    exact List.head?_append_of_ne_nil _ hne

theorem ofString_relativeText {steps : List String} (hne : steps ≠ [])
    (h : ∀ step ∈ steps, IsStep step) :
    ofString (relativeText steps) = ⟨.relative, steps.filter (· ≠ ".")⟩ := by
  obtain ⟨step, rest, rfl⟩ := List.exists_cons_of_ne_nil hne
  have hanchor : anchorOf (relativeText (step :: rest)).toList = .relative := by
    apply anchorOf_of_head
    rw [head?_relativeText (h step List.mem_cons_self)]
    intro hs
    exact (h step List.mem_cons_self).2 (List.mem_of_head? hs)
  have hpieces : Text.split '/' (relativeText (step :: rest)).toList =
      (step :: rest).map String.toList := by
    rw [toList_relativeText hne]
    apply Text.split_join '/' (by simp)
    intro piece hp
    obtain ⟨s, hs, rfl⟩ := List.mem_map.mp hp
    exact (h s hs).2
  rw [ofString, hanchor, names, hpieces]
  have hfilter : (step :: rest).filter
        ((fun piece => piece != [] && piece != ['.']) ∘ String.toList) =
      (step :: rest).filter (· ≠ ".") := by
    apply List.filter_congr
    intro s hs
    have hempty : s.toList ≠ [] := by simpa using (h s hs).1
    have hdot : s.toList = ['.'] ↔ s = "." := by rw [← String.toList_inj]; rfl
    rw [Bool.eq_iff_iff]
    simp only [Function.comp_apply, Bool.and_eq_true, bne_iff_ne, ne_eq, hempty, hdot,
      not_false_eq_true, true_and, decide_eq_true_eq]
  rw [List.filter_map, hfilter, List.map_map]
  simp [Function.comp_def]

inductive IsSpelling (folder place : List String) (s : String) : Prop
  | inside (names : List String) (hplace : place = folder ++ names)
      (h : s = relativeText ("." :: names))
  | above (common left names : List String) (hleft : left ≠ []) (hfolder : folder = common ++ left)
      (hplace : place = common ++ names)
      (h : s = relativeText (List.replicate left.length ".." ++ names))

end Path

namespace FileTree

theorem walk_append (place names more : List String) :
    walk place (names ++ more) = walk (walk place names) more :=
  List.foldl_append

theorem walk_of_not_mem {names : List String} (h : ".." ∉ names) (place : List String) :
    walk place names = place ++ names := by
  induction names generalizing place with
  | nil => simp [walk]
  | cons name names ih =>
    simp only [List.mem_cons, not_or] at h
    rw [walk, List.foldl_cons, if_neg (Ne.symm h.1)]
    exact (ih h.2 (place ++ [name])).trans (by simp)

theorem walk_replicate_dots (common left : List String) :
    walk (common ++ left) (List.replicate left.length "..") = common := by
  induction left using List.reverseRecOn with
  | nil => simp [walk]
  | append_singleton left last ih =>
    rw [List.length_append, List.length_singleton, List.replicate_succ, walk, List.foldl_cons,
      if_pos rfl, ← List.append_assoc, List.dropLast_concat]
    exact ih

end FileTree

namespace Path

theorem IsSpelling.head?_eq {folder place : List String} {s : String}
    (h : IsSpelling folder place s) : s.toList.head? = some '.' := by
  cases h with
  | inside names _ h =>
    rw [h, head?_relativeText isStep_dot]
    rfl
  | above common left names hleft _ _ h =>
    obtain ⟨last, left, rfl⟩ := List.exists_cons_of_ne_nil hleft
    rw [h, List.length_cons, List.replicate_succ, List.cons_append, head?_relativeText isStep_dots]
    rfl

theorem filter_ne_dot {names : List String} (h : ∀ name ∈ names, IsName name) :
    names.filter (· ≠ ".") = names := by
  rw [List.filter_eq_self]
  intro name hn
  simpa using (h name hn).ne_dot

theorem IsSpelling.ofString_eq {folder place : List String} {s : String}
    (h : IsSpelling folder place s) (hplace : ∀ name ∈ place, IsName name) :
    ∃ steps, ofString s = ⟨.relative, steps⟩ ∧ FileTree.walk folder steps = place ∧
      ∀ step ∈ steps, '\x00' ∉ step.toList := by
  cases h with
  | inside names hp h =>
    have hnames : ∀ name ∈ names, IsName name := fun name hn => hplace name (by simp [hp, hn])
    have hsteps : ∀ step ∈ "." :: names, IsStep step :=
      List.forall_mem_cons.mpr ⟨isStep_dot, fun name hn => (hnames name hn).isStep⟩
    refine ⟨names, ?_, ?_, fun name hn => (hnames name hn).without_null⟩
    · rw [h, ofString_relativeText (by simp) hsteps, List.filter_cons_of_neg (by simp),
        filter_ne_dot hnames]
    · rw [hp, FileTree.walk_of_not_mem fun hm => (hnames _ hm).ne_dots rfl]
  | above common left names hleft hf hp h =>
    have hnames : ∀ name ∈ names, IsName name := fun name hn => hplace name (by simp [hp, hn])
    have hne : List.replicate left.length ".." ++ names ≠ [] := by simp [hleft]
    have hsteps : ∀ step ∈ List.replicate left.length ".." ++ names, IsStep step := by
      intro step hs
      rcases List.mem_append.mp hs with hs | hs
      · rw [List.eq_of_mem_replicate hs]
        exact isStep_dots
      · exact (hnames step hs).isStep
    refine ⟨List.replicate left.length ".." ++ names, ?_, ?_, ?_⟩
    · rw [h, ofString_relativeText hne hsteps, List.filter_append, filter_ne_dot hnames,
        List.filter_replicate_of_pos (by simp)]
    · rw [FileTree.walk_append, hf, FileTree.walk_replicate_dots, hp,
        FileTree.walk_of_not_mem fun hm => (hnames _ hm).ne_dots rfl]
    · intro step hs
      rcases List.mem_append.mp hs with hs | hs
      · rw [List.eq_of_mem_replicate hs]
        decide
      · exact (hnames step hs).without_null

def stepsBetween : List String → List String → List String
  | a :: folder, b :: place =>
    if a = b then stepsBetween folder place
    else List.replicate (folder.length + 1) ".." ++ b :: place
  | folder, place => List.replicate folder.length ".." ++ place

def spelling (folder place : List String) : String :=
  let steps := stepsBetween folder place
  relativeText (if steps.head? = some ".." then steps else "." :: steps)

theorem stepsBetween_eq (folder place : List String) :
    ∃ common left names, folder = common ++ left ∧ place = common ++ names ∧
      stepsBetween folder place = List.replicate left.length ".." ++ names := by
  fun_induction stepsBetween folder place with
  | case1 folder b place ih =>
    obtain ⟨common, left, names, rfl, rfl, h⟩ := ih
    exact ⟨b :: common, left, names, rfl, rfl, h⟩
  | case2 a folder b place _ => exact ⟨[], a :: folder, b :: place, rfl, rfl, rfl⟩
  | case3 folder place => exact ⟨[], folder, place, rfl, rfl, rfl⟩

theorem isSpelling_spelling (folder : List String) {place : List String}
    (hplace : ∀ name ∈ place, IsName name) : IsSpelling folder place (spelling folder place) := by
  obtain ⟨common, left, names, hf, hp, h⟩ := stepsBetween_eq folder place
  cases left with
  | nil =>
    have hhead : names.head? ≠ some ".." := by
      intro hn
      have hm : ".." ∈ place := by simp [hp, List.mem_of_head? hn]
      exact (hplace _ hm).ne_dots rfl
    refine .inside names (by simpa [hf] using hp) ?_
    simp [spelling, h, hhead]
  | cons last left =>
    refine .above common (last :: left) names (by simp) hf hp ?_
    simp [spelling, h, List.replicate_succ]

end Path

end WorkspaceCycles
