import Mathlib
import WorkspaceCycles.Proofs.PlainTrees
import WorkspaceCycles.Proofs.RefusedPlaces

namespace WorkspaceCycles

inductive SearchStep.Admits : List SearchStep → List String → Prop
  | nil : Admits [] []
  | name (name : String) {steps : List SearchStep} {names : List String}
      (h : Admits steps names) : Admits (.name name :: steps) (name :: names)
  | glob {pattern name : String} {steps : List SearchStep} {names : List String}
      (hname : Glob.isMatch pattern name = true) (h : Admits steps names) :
      Admits (.glob pattern :: steps) (name :: names)
  | anyFolders (above : List String) {steps : List SearchStep} {names : List String}
      (h : Admits steps names) : Admits (.anyFolders :: steps) (above ++ names)

namespace FileTree

def IsNamed (t : FileTree) : Prop :=
  ∀ d ∈ t.root.descendants, ∀ name ∈ d.1, Path.IsName name

instance (t : FileTree) : Decidable t.IsNamed :=
  inferInstanceAs (Decidable (∀ d ∈ t.root.descendants, ∀ name ∈ d.1, Path.IsName name))

section Sound

variable {t : FileTree} (ht : t.IsNamed)

include ht

theorem IsNamed.of_node {p : Path} {n : Node} (h : t.node p = .ok n) :
    ∀ d ∈ n.descendants, ∀ name ∈ d.1, Path.IsName name := by
  obtain ⟨used, goal, -, hgoal⟩ := leads_of_node h
  intro d hd name hname
  exact ht _ (Node.mem_descendants_below hgoal hd) name (List.mem_append_right _ hname)

theorem IsNamed.of_child {p : Path} {name : String} {n : Node} (h : t.node (p.child name) = .ok n) :
    name = ".." ∨ Path.IsName name := by
  obtain ⟨used, goal, hleads, -⟩ := leads_of_node h
  change Leads t used [] (p.parts ++ [name]) goal at hleads
  obtain ⟨first, last, middle, -, -, hlast⟩ := hleads.of_append
  have hentry : ∀ {n : Node}, t.root.descend? (middle ++ [name]) = some n → Path.IsName name :=
    fun hn => ht _ (Node.mem_descendants_of_descend? (by simp) hn) name (by simp)
  cases hlast with
  | up => exact .inl rfl
  | down _ hchild => exact .inr (hentry hchild)
  | link _ hchild => exact .inr (hentry hchild)

theorem IsNamed.of_mem_entriesAt {p : Path} {name : String}
    (h : name ∈ (t.entriesAt p).map (·.1)) : Path.IsName name := by
  obtain ⟨⟨name, m⟩, he, rfl⟩ := List.mem_map.mp h
  unfold entriesAt at he
  cases hn : t.node p with
  | error fault =>
    rw [hn] at he
    cases he
  | ok n =>
    rw [hn] at he
    cases n with
    | file | link => cases he
    | folder es =>
      apply ht.of_node hn ([name], m) ?_ name List.mem_cons_self
      rw [Node.descendants]
      exact (Node.mem_entriesDescendants he).1

theorem IsNamed.of_mem_foldersFrom {p q : Path} (h : p ∈ t.foldersFrom q) :
    ∃ names, p = q.join ⟨.relative, names⟩ ∧ ∀ name ∈ names, Path.IsName name := by
  unfold foldersFrom at h
  cases hn : t.node q with
  | error fault =>
    rw [hn] at h
    cases h
  | ok n =>
    rw [hn] at h
    rcases List.mem_cons.mp h with rfl | h
    · exact ⟨[], p.join_nil.symm, by simp⟩
    · obtain ⟨d, hd, hfolder⟩ := List.mem_filterMap.mp h
      refine ⟨d.1, ?_, ht.of_node hn d hd⟩
      split at hfolder
      · exact (Option.some.inj hfolder).symm
      · cases hfolder

theorem exists_admits_of_mem_search {steps : List SearchStep} {p q : Path}
    (h : p ∈ t.search steps q) : ∃ names, p = q.join ⟨.relative, names⟩ ∧
      SearchStep.Admits steps names ∧ ∀ name ∈ names, name = ".." ∨ Path.IsName name := by
  induction steps generalizing q with
  | nil =>
    rw [List.mem_singleton.mp h]
    exact ⟨[], q.join_nil.symm, .nil, by simp⟩
  | cons step steps ih =>
    cases step with
    | name name =>
      simp only [search] at h
      split at h
      · rename_i hfound
        obtain ⟨n, hn⟩ : ∃ n, t.node (q.child name) = .ok n := by
          cases hn : t.node (q.child name) with
          | ok n => exact ⟨n, rfl⟩
          | error fault => simp [isFolder, contains, hn] at hfound
        obtain ⟨names, rfl, hadmits, hnames⟩ := ih h
        refine ⟨name :: names, q.child_join name names, .name name hadmits, ?_⟩
        exact List.forall_mem_cons.mpr ⟨ht.of_child hn, hnames⟩
      · cases h
    | glob pattern =>
      simp only [search] at h
      obtain ⟨r, hr, h⟩ := List.mem_flatMap.mp h
      obtain ⟨name, hname, rfl⟩ := List.mem_map.mp hr
      obtain ⟨hentry, hmatch⟩ := List.mem_filter.mp hname
      split at h
      · obtain ⟨names, rfl, hadmits, hnames⟩ := ih h
        refine ⟨name :: names, q.child_join name names, .glob hmatch hadmits, ?_⟩
        exact List.forall_mem_cons.mpr ⟨.inr (ht.of_mem_entriesAt hentry), hnames⟩
      · cases h
    | anyFolders =>
      rw [search, List.mem_eraseDups] at h
      obtain ⟨r, hr, h⟩ := List.mem_flatMap.mp h
      obtain ⟨above, rfl, habove⟩ := ht.of_mem_foldersFrom hr
      obtain ⟨names, rfl, hadmits, hnames⟩ := ih h
      refine ⟨above ++ names, q.join_join above names, .anyFolders above hadmits, ?_⟩
      intro name hname
      rcases List.mem_append.mp hname with hname | hname
      · exact .inr (habove name hname)
      · exact hnames name hname

end Sound

end FileTree

def Node.chain (names : List String) (last : Node) : Node :=
  names.foldr (fun name n => .folder [(name, n)]) last

theorem Node.descend?_chain (names more : List String) (last : Node) :
    (chain (names ++ more) last).descend? names = some (chain more last) := by
  induction names with
  | nil => rfl
  | cons name names ih =>
    have hget : Assoc.get? [(name, chain (names ++ more) last)] name =
        some (chain (names ++ more) last) := by simp [Assoc.get?_cons]
    change (Assoc.get? [(name, chain (names ++ more) last)] name).bind _ = _
    rw [hget]
    exact ih

theorem Node.descendants_chain {names : List String} {last : Node}
    (hnames : ∀ name ∈ names, Path.IsName name)
    (hlast : ∀ d ∈ last.descendants, ∀ name ∈ d.1, Path.IsName name) :
    ∀ d ∈ (chain names last).descendants, ∀ name ∈ d.1, Path.IsName name := by
  induction names with
  | nil => exact hlast
  | cons name names ih =>
    obtain ⟨hname, hrest⟩ := List.forall_mem_cons.mp hnames
    intro d hd
    change d ∈ (Node.folder [(name, chain names last)]).descendants at hd
    simp only [descendants, entriesDescendants, List.append_nil, List.mem_cons, List.mem_map] at hd
    rcases hd with rfl | ⟨d, hd, rfl⟩
    · simpa using hname
    · exact List.forall_mem_cons.mpr ⟨hname, ih hrest d hd⟩

theorem Node.isLink_chain {last : Node} (h : last.isLink = false) (names : List String) :
    (chain names last).isLink = false := by
  cases names with
  | nil => exact h
  | cons name names => rfl

theorem Node.exists_chain_eq_folder (names : List String) (es : List (String × Node)) :
    ∃ es', chain names (.folder es) = .folder es' := by
  cases names with
  | nil => exact ⟨es, rfl⟩
  | cons name names => exact ⟨_, rfl⟩

namespace FileTree

def chain (names : List String) (last : Node) : FileTree where
  root := .chain names last
  limits := .unlimited

section Chain

variable {above : List String} {last : Node}

theorem locate_chain (hlast : last.isLink = false) (links : Nat) {below : List String}
    (more : List String) (h : ".." ∉ below) :
    (chain (above ++ (below ++ more)) last).locate links above below = .ok (above ++ below) := by
  induction below generalizing above with
  | nil => simp [locate]
  | cons name below ih =>
    simp only [List.mem_cons, not_or] at h
    have hplace : (chain (above ++ (name :: below ++ more)) last).root.descend? above =
        some (.folder [(name, .chain (below ++ more) last)]) := Node.descend?_chain above _ last
    have hrest := @ih (above ++ [name]) h.2
    simp only [List.append_assoc, List.singleton_append] at hrest
    have hnext := Node.isLink_chain hlast (below ++ more)
    rw [locate, hplace]
    simp only [if_neg (Ne.symm h.1), Assoc.get?_cons, if_pos]
    cases hn : Node.chain (below ++ more) last with
    | file | folder => exact hrest
    | link =>
      rw [hn] at hnext
      cases hnext

theorem node_chain (last : Node) (hlast : last.isLink = false) (more : List String)
    (h : ".." ∉ above) :
    (chain (above ++ more) last).node ⟨.root, above⟩ = .ok (.chain more last) := by
  have hlocate : (chain (above ++ more) last).locate maxLinks [] above = .ok above :=
    @locate_chain [] last hlast maxLinks above more h
  have hgoal : (chain (above ++ more) last).root.descend? above = some (.chain more last) :=
    Node.descend?_chain above more last
  rw [node_of_locate hlocate, hgoal]
  rfl

variable {es : List (String × Node)}

theorem isFolder_chain (es : List (String × Node)) (more : List String) (h : ".." ∉ above) :
    (chain (above ++ more) (.folder es)).isFolder ⟨.root, above⟩ = true := by
  obtain ⟨es', hes⟩ := Node.exists_chain_eq_folder more es
  rw [isFolder, node_chain _ rfl more h, hes]

theorem mem_foldersFrom {t : FileTree} {p : Path} {n : Node} {names : List String}
    (hn : t.node p = .ok n) (h : n.descend? names = some (.folder es)) :
    p.join ⟨.relative, names⟩ ∈ t.foldersFrom p := by
  rw [foldersFrom, hn]
  by_cases hne : names = []
  · subst hne
    rw [p.join_nil]
    exact List.mem_cons_self
  · apply List.mem_cons_of_mem
    exact List.mem_filterMap.mpr ⟨_, Node.mem_descendants_of_descend? hne h, rfl⟩

theorem mem_search_chain (above : List String) {steps : List SearchStep} {below : List String}
    (hadmits : SearchStep.Admits steps below) (h : ".." ∉ above ++ below) :
    ⟨.root, above ++ below⟩ ∈
      (chain (above ++ below) (.folder es)).search steps ⟨.root, above⟩ := by
  induction hadmits generalizing above with
  | nil => simp [search]
  | @name name steps below hadmits ih =>
    rw [List.append_cons] at h ⊢
    have hfolder : (chain (above ++ [name] ++ below) (.folder es)).isFolder
        (Path.child ⟨.root, above⟩ name) = true :=
      isFolder_chain es below (fun hm => h (List.mem_append_left _ hm))
    rw [search, if_pos (Or.inl hfolder)]
    exact ih _ h
  | @glob pattern name steps below hname hadmits ih =>
    have habove : ".." ∉ above := fun hm => h (List.mem_append_left _ hm)
    have hentry : name ∈
        ((chain (above ++ name :: below) (.folder es)).entriesAt ⟨.root, above⟩).map (·.1) := by
      rw [entriesAt, node_chain _ rfl _ habove]
      exact List.mem_cons_self
    rw [List.append_cons] at h hentry ⊢
    have hfolder := isFolder_chain es below (fun hm => h (List.mem_append_left _ hm))
    simp only [search]
    refine List.mem_flatMap.mpr ⟨⟨.root, above ++ [name]⟩, ?_, ?_⟩
    · exact List.mem_map_of_mem (List.mem_filter.mpr ⟨hentry, hname⟩)
    · rw [if_pos (.inr hfolder)]
      exact ih _ h
  | @anyFolders mid steps below hadmits ih =>
    have habove : ".." ∉ above := fun hm => h (List.mem_append_left _ hm)
    obtain ⟨es', hes⟩ := Node.exists_chain_eq_folder below es
    have hn := node_chain (.folder es) rfl (mid ++ below) habove
    have hmid := mem_foldersFrom hn ((Node.descend?_chain mid below (.folder es)).trans
      (congrArg some hes))
    rw [← List.append_assoc] at h hmid ⊢
    rw [search, List.mem_eraseDups]
    exact List.mem_flatMap.mpr ⟨_, hmid, ih _ h⟩

end Chain

end FileTree

end WorkspaceCycles
