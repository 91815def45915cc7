import WorkspaceCycles.Proofs.ToolRuns

/-!
Following links. Names that lead to a place by way of a few links lead to the same place when all
links are followed, so a place that can be found has a path without links.
-/

namespace WorkspaceCycles

theorem Node.descend?_append (n : Node) (place names : List String) :
    n.descend? (place ++ names) = (n.descend? place).bind fun m => m.descend? names := by
  induction place generalizing n with
  | nil => rfl
  | cons first place ih =>
    simp only [List.cons_append, descend?]
    cases Assoc.get? n.entries first with
    | none => rfl
    | some child => exact ih child

theorem Node.descend?_concat (n : Node) (place : List String) (name : String) :
    n.descend? (place ++ [name]) =
      (n.descend? place).bind fun m => Assoc.get? m.entries name := by
  simp only [descend?_append, descend?, Option.bind_fun_some]

namespace FileTree

variable {t : FileTree}

/-- Some names lead from one place to another by way of folders and a number of links. -/
inductive Leads (t : FileTree) : Nat → List String → List String → List String → Prop
  | here (place : List String) : Leads t 0 place [] place
  | up {links : Nat} {place names goal : List String} {es : List (String × Node)}
      (hplace : t.root.descend? place = some (.folder es))
      (hnext : Leads t links place.dropLast names goal) : Leads t links place (".." :: names) goal
  | down {links : Nat} {place names goal : List String} {name : String} {n : Node}
      (hname : name ≠ "..") (hchild : t.root.descend? (place ++ [name]) = some n)
      (hlink : n.isLink = false) (hnext : Leads t links (place ++ [name]) names goal) :
      Leads t links place (name :: names) goal
  | link {inside links : Nat} {place names middle goal : List String} {name : String}
      {target : Path} (hname : name ≠ "..")
      (hchild : t.root.descend? (place ++ [name]) = some (.link target))
      (htarget : Leads t inside (if target.isAbsolute then [] else place) target.parts middle)
      (hnext : Leads t links middle names goal) :
      Leads t (inside + links + 1) place (name :: names) goal

namespace Leads

theorem of_append {links : Nat} {place names more goal : List String}
    (h : Leads t links place (names ++ more) goal) :
    ∃ first last middle, first + last = links ∧ Leads t first place names middle ∧
      Leads t last middle more goal := by
  induction names generalizing links place with
  | nil => exact ⟨0, links, place, Nat.zero_add _, .here place, h⟩
  | cons name names ih =>
    cases h with
    | up hplace hnext =>
      obtain ⟨first, last, middle, hsum, hfirst, hlast⟩ := ih hnext
      exact ⟨first, last, middle, hsum, .up hplace hfirst, hlast⟩
    | down hname hchild hlink hnext =>
      obtain ⟨first, last, middle, hsum, hfirst, hlast⟩ := ih hnext
      exact ⟨first, last, middle, hsum, .down hname hchild hlink hfirst, hlast⟩
    | @link inside links' _ _ _ _ _ _ hname hchild htarget hnext =>
      obtain ⟨first, last, middle, hsum, hfirst, hlast⟩ := ih hnext
      refine ⟨inside + first + 1, last, middle, by omega, .link hname hchild htarget hfirst, hlast⟩

theorem unique {links links' : Nat} {place names goal goal' : List String}
    (h : Leads t links place names goal) (h' : Leads t links' place names goal') :
    links = links' ∧ goal = goal' := by
  induction h generalizing links' goal' with
  | here => cases h' with | here => exact ⟨rfl, rfl⟩
  | up hplace _ ih =>
    cases h' with
    | up _ hnext => exact ih hnext
    | down hname => exact absurd rfl hname
    | link hname => exact absurd rfl hname
  | down hname hchild hlink _ ih =>
    cases h' with
    | up => exact absurd rfl hname
    | down _ _ _ hnext => exact ih hnext
    | link _ hchild' =>
      rw [hchild] at hchild'
      cases hchild'
      cases hlink
  | link hname hchild _ _ ihtarget ihnext =>
    cases h' with
    | up => exact absurd rfl hname
    | down _ hchild' hlink =>
      rw [hchild] at hchild'
      cases hchild'
      cases hlink
    | link _ hchild' htarget hnext =>
      rw [hchild] at hchild'
      cases hchild'
      obtain ⟨rfl, rfl⟩ := ihtarget htarget
      obtain ⟨rfl, rfl⟩ := ihnext hnext
      exact ⟨rfl, rfl⟩

end Leads

theorem descend?_concat_of_folder {place : List String} {es : List (String × Node)}
    (h : t.root.descend? place = some (.folder es)) (name : String) :
    t.root.descend? (place ++ [name]) = Assoc.get? es name := by
  rw [Node.descend?_concat, h]
  rfl

theorem leads_of_locate {links : Nat} {place names goal : List String}
    (h : t.locate links place names = .ok goal) : ∃ used, Leads t used place names goal := by
  fun_induction locate t links place names with
  | case1 =>
    cases h
    exact ⟨0, .here _⟩
  | case2 links place names es hplace ih =>
    obtain ⟨used, hnext⟩ := ih h
    exact ⟨used, .up hplace hnext⟩
  | case3 => cases h
  | case4 => cases h
  | case5 place name names es hplace hname links target hget ih =>
    obtain ⟨used, hall⟩ := ih h
    obtain ⟨inside, rest, middle, -, htarget, hnext⟩ := hall.of_append
    have hchild := (descend?_concat_of_folder hplace name).trans hget
    exact ⟨inside + rest + 1, .link hname hchild htarget hnext⟩
  | case6 place name names es hplace hname n links hzero hsucc hget ih =>
    obtain ⟨used, hnext⟩ := ih h
    have hchild := (descend?_concat_of_folder hplace name).trans hget
    refine ⟨used, .down hname hchild ?_ hnext⟩
    cases n with
    | file => rfl
    | folder => rfl
    | link target =>
      cases links with
      | zero => exact (hzero target rfl rfl).elim
      | succ links => exact (hsucc target links rfl rfl).elim
  | case7 => cases h
  | case8 => cases h

def Outlasts (t : FileTree) (links : Nat) (l : List String) : Prop :=
  ∃ place name target inside middle, l = place ++ [name] ∧
    t.root.descend? l = some (.link target) ∧
    Leads t inside (if target.isAbsolute then [] else place) target.parts middle ∧ links ≤ inside

theorem Outlasts.mono {links links' : Nat} {l : List String} (h : t.Outlasts links l)
    (hle : links' ≤ links) : t.Outlasts links' l := by
  obtain ⟨place, name, target, inside, middle, hl, hlink, htarget, hinside⟩ := h
  exact ⟨place, name, target, inside, middle, hl, hlink, htarget, by omega⟩

section Follow

variable {opened : List (List String)} {place names : List String} {name : String} {target : Path}

theorem follow_of_not_link (hname : name ≠ "..")
    (hc : ∀ target, t.root.descend? (place ++ [name]) ≠ some (.link target)) :
    t.follow opened place (name :: names) = t.follow opened (place ++ [name]) names := by
  rw [follow, if_neg hname]
  split
  · rename_i target h
    exact absurd h (hc target)
  · rfl

theorem follow_of_opened (hname : name ≠ "..")
    (hc : t.root.descend? (place ++ [name]) = some (.link target)) (hp : place ++ [name] ∈ opened) :
    t.follow opened place (name :: names) = .error (walk (place ++ [name]) names) := by
  rw [follow, if_neg hname]
  split
  · rw [dif_pos hp]
  · rename_i h
    exact absurd hc (h target)

theorem follow_of_link (hname : name ≠ "..")
    (hc : t.root.descend? (place ++ [name]) = some (.link target)) (hp : place ++ [name] ∉ opened) :
    t.follow opened place (name :: names) =
      ((t.follow ((place ++ [name]) :: opened) (if target.isAbsolute then [] else place)
        target.parts).mapError (walk · names)).bind fun middle => t.follow opened middle names := by
  rw [follow, if_neg hname]
  split
  · rename_i target' h
    cases hc.symm.trans h
    rw [dif_neg hp]
    split <;> rename_i hinside <;> rw [hinside] <;> rfl
  · rename_i h
    exact absurd hc (h target)

theorem follow_congr {t' : FileTree} (h : ∀ place target, place ≠ [] →
      (t.root.descend? place = some (.link target) ↔ t'.root.descend? place = some (.link target)))
    (opened : List (List String)) (place names : List String) :
    t.follow opened place names = t'.follow opened place names := by
  fun_induction follow t opened place names with
  | case1 => rw [follow]
  | case2 opened place names ih => rw [follow, if_pos rfl, ih]
  | case3 opened place name names hname target hc hp =>
    rw [follow_of_opened hname ((h _ _ (by simp)).mp hc) hp]
  | case4 opened place name names hname target hc hp _ middle hinside iht ihn =>
    have hinside' : t'.follow ((place ++ [name]) :: opened)
        (if target.isAbsolute then [] else place) target.parts = .ok middle :=
      iht.symm.trans hinside
    rw [follow_of_link hname ((h _ _ (by simp)).mp hc) hp, hinside']
    exact ihn
  | case5 opened place name names hname target hc hp _ middle hinside iht =>
    have hinside' : t'.follow ((place ++ [name]) :: opened)
        (if target.isAbsolute then [] else place) target.parts = .error middle :=
      iht.symm.trans hinside
    rw [follow_of_link hname ((h _ _ (by simp)).mp hc) hp, hinside']
    rfl
  | case6 opened place name names hname hc ih =>
    rw [follow_of_not_link hname, ih]
    exact fun target hlink => hc target ((h _ _ (by simp)).mpr hlink)

end Follow

theorem follow_of_leads {links : Nat} {opened : List (List String)}
    {place names goal : List String} (h : Leads t links place names goal)
    (ho : ∀ l ∈ opened, t.Outlasts links l) : t.follow opened place names = .ok goal := by
  induction h generalizing opened with
  | here => rw [follow]
  | up _ _ ih =>
    rw [follow, if_pos rfl]
    exact ih ho
  | @down links place names goal name n hname hchild hlink _ ih =>
    rw [follow_of_not_link hname]
    · exact ih ho
    · intro target hc
      rw [hchild] at hc
      cases hc
      cases hlink
  | @link inside links place names middle goal name target hname hchild htarget hnext iht ihn =>
    have hfresh : place ++ [name] ∉ opened := by
      intro hm
      obtain ⟨place', name', target', inside', middle', hl, hlink, htarget', hle⟩ := ho _ hm
      obtain ⟨rfl, hn⟩ := List.append_inj' hl rfl
      rw [hchild] at hlink
      cases hlink
      obtain ⟨rfl, -⟩ := htarget.unique htarget'
      omega
    have hinside : t.follow ((place ++ [name]) :: opened)
        (if target.isAbsolute then [] else place) target.parts = .ok middle := by
      apply iht
      intro l hl
      rcases List.mem_cons.mp hl with rfl | hl
      · exact ⟨place, name, target, inside, middle, rfl, hchild, htarget, Nat.le_refl _⟩
      · exact (ho l hl).mono (by omega)
    have hrest : t.follow opened middle names = .ok goal :=
      ihn fun l hl => (ho l hl).mono (by omega)
    rw [follow_of_link hname hchild hfresh, hinside]
    exact hrest

def IsDirect (t : FileTree) (place : List String) : Prop :=
  ∀ above name, (above ++ [name]) <+: place →
    name ≠ ".." ∧ ∀ target, t.root.descend? (above ++ [name]) ≠ some (.link target)

theorem isDirect_nil : t.IsDirect [] := by
  intro above name h
  simp at h

theorem IsDirect.dropLast {place : List String} (h : t.IsDirect place) :
    t.IsDirect place.dropLast :=
  fun above name hp => h above name (hp.trans (List.dropLast_prefix place))

theorem IsDirect.concat {place : List String} {name : String} (h : t.IsDirect place)
    (hname : name ≠ "..")
    (hlink : ∀ target, t.root.descend? (place ++ [name]) ≠ some (.link target)) :
    t.IsDirect (place ++ [name]) := by
  intro above last hp
  rcases List.prefix_concat_iff.mp hp with he | hp
  · obtain ⟨rfl, hl⟩ := List.append_inj' he rfl
    cases hl
    exact ⟨hname, hlink⟩
  · exact h above last hp

theorem Leads.isDirect {links : Nat} {place names goal : List String}
    (h : Leads t links place names goal) (hplace : t.IsDirect place) : t.IsDirect goal := by
  induction h with
  | here => exact hplace
  | up _ _ ih => exact ih hplace.dropLast
  | @down _ place _ _ name n hname hchild hlink _ ih =>
    apply ih
    refine hplace.concat hname fun target hc => ?_
    rw [hchild] at hc
    cases hc
    cases hlink
  | @link _ _ place _ _ _ _ target _ _ _ _ iht ihn =>
    apply ihn
    apply iht
    split
    · exact isDirect_nil
    · exact hplace

theorem locate_of_isDirect {links : Nat} {place names : List String}
    (h : t.IsDirect (place ++ names)) : t.locate links place names ≠ .error .tooManyLinks := by
  induction names generalizing place with
  | nil =>
    rw [locate]
    simp
  | cons name names ih =>
    have hp : place ++ [name] <+: place ++ name :: names := ⟨names, by simp⟩
    obtain ⟨hname, hlink⟩ := h place name hp
    rw [locate]
    split
    · rename_i es hplace
      rw [if_neg hname]
      have hget := descend?_concat_of_folder hplace name
      split
      · simpa using absence_ne_tooManyLinks t name
      · rename_i target hc
        exact absurd (hget.trans hc) (hlink target)
      · rename_i target _ hc
        exact absurd (hget.trans hc) (hlink target)
      · exact ih (by simpa using h)
    · simp
    · simp

theorem node_of_isDirect {place : List String} (h : t.IsDirect place) :
    t.node ⟨.root, place⟩ ≠ .error .tooManyLinks := by
  have hlocate : t.locate maxLinks [] place ≠ .error .tooManyLinks := locate_of_isDirect h
  unfold node
  cases hl : t.locate maxLinks [] place with
  | error fault =>
    rw [hl] at hlocate
    intro he
    cases he
    exact hlocate rfl
  | ok goal =>
    simp only [bind, Except.bind]
    split <;> simp

theorem exists_place_of_node {p : Path} {n : Node} (h : t.node p = .ok n) :
    ∃ place, t.locate maxLinks [] p.parts = .ok place ∧ t.root.descend? place = some n := by
  obtain ⟨place, hplace, h⟩ := exists_of_bind_eq_ok h
  refine ⟨place, hplace, ?_⟩
  split at h
  · rename_i hn
    rw [hn, Except.ok.inj h]
  · cases h

theorem leads_of_node {p : Path} {n : Node} (h : t.node p = .ok n) :
    ∃ used goal, Leads t used [] p.parts goal ∧ t.root.descend? goal = some n := by
  obtain ⟨goal, hgoal, hn⟩ := exists_place_of_node h
  obtain ⟨used, hleads⟩ := leads_of_locate hgoal
  exact ⟨used, goal, hleads, hn⟩

theorem Leads.canonical_eq {used : Nat} {p : Path} {goal : List String}
    (h : Leads t used [] p.parts goal) : t.canonical p = ⟨.root, goal⟩ := by
  have hfollow : t.follow [] [] p.parts = .ok goal := follow_of_leads h (by simp)
  simp only [canonical, hfollow]

theorem resolves_of_node {p : Path} {n : Node} (below : List String)
    (hnull : ∀ part ∈ p.parts, '\x00' ∉ part.toList)
    (h : t.node (p.join ⟨.relative, below⟩) = .ok n) : t.Resolves p := by
  obtain ⟨used, goal, hleads, -⟩ := leads_of_node h
  change Leads t used [] (p.parts ++ below) goal at hleads
  obtain ⟨first, last, middle, -, hfirst, -⟩ := hleads.of_append
  refine ⟨hnull, ?_⟩
  rw [hfirst.canonical_eq]
  exact node_of_isDirect (hfirst.isDirect isDirect_nil)

section WithoutLinks

theorem not_link_of_links_eq_nil (h : t.links = []) {place : List String} (hne : place ≠ [])
    (target : Path) : t.root.descend? place ≠ some (.link target) := by
  intro hp
  have hm := mem_links hne hp
  rw [h] at hm
  cases hm

theorem follow_of_links_eq_nil (h : t.links = []) (opened : List (List String))
    (place names : List String) : t.follow opened place names = .ok (walk place names) := by
  induction names generalizing place with
  | nil =>
    rw [follow]
    rfl
  | cons name names ih =>
    rw [walk, List.foldl_cons]
    by_cases hname : name = ".."
    · rw [follow, if_pos hname, if_pos hname, ih, walk]
    · rw [follow_of_not_link hname (not_link_of_links_eq_nil h (by simp)), if_neg hname, ih, walk]

theorem locate_eq_walk (h : t.links = []) {names place : List String}
    (hl : t.locate maxLinks [] names = .ok place) : place = walk [] names := by
  obtain ⟨used, hleads⟩ := leads_of_locate hl
  have hfollow : t.follow [] [] names = .ok place := follow_of_leads hleads (by simp)
  exact Except.ok.inj (hfollow.symm.trans (follow_of_links_eq_nil h [] [] names))

theorem not_mem_walk {place names : List String} (h : ".." ∉ place) : ".." ∉ walk place names := by
  induction names generalizing place with
  | nil => exact h
  | cons name names ih =>
    rw [walk, List.foldl_cons]
    apply ih
    split
    · exact fun hm => h (List.dropLast_subset place hm)
    · rename_i hname
      simpa [Ne.symm hname] using h

theorem isDirect_of_links_eq_nil (h : t.links = []) {place : List String} (hp : ".." ∉ place) :
    t.IsDirect place := by
  intro above name habove
  refine ⟨?_, not_link_of_links_eq_nil h (by simp)⟩
  rintro rfl
  exact hp (habove.subset (by simp))

theorem canonical_of_links_eq_nil (h : t.links = []) (p : Path) :
    t.canonical p = ⟨.root, walk [] p.parts⟩ := by
  simp only [canonical, follow_of_links_eq_nil h]

theorem node_canonical_of_links_eq_nil (h : t.links = []) (p : Path) :
    t.node (t.canonical p) ≠ .error .tooManyLinks := by
  rw [canonical_of_links_eq_nil h]
  exact node_of_isDirect (isDirect_of_links_eq_nil h (not_mem_walk (by simp)))

theorem canonical?_of_links_eq_nil (h : t.links = []) {p : Path}
    (hnull : ∀ part ∈ p.parts, '\x00' ∉ part.toList) :
    t.canonical? p = .ok ⟨.root, walk [] p.parts⟩ := by
  obtain ⟨q, hq⟩ := exists_canonical?_iff.mpr ⟨hnull, node_canonical_of_links_eq_nil h p⟩
  rw [hq, ← canonical_of_links_eq_nil h]
  exact congrArg _ (canonical?_eq_ok hq)

end WithoutLinks

end FileTree

end WorkspaceCycles
