import WorkspaceCycles.Proofs.TreeShape
import WorkspaceCycles.Proofs.PathText

namespace WorkspaceCycles

namespace Node

structure IsPlain (n : Node) : Prop where
  named : ∀ d ∈ n.descendants, ∀ name ∈ d.1, Path.IsName name
  unique : (n.descendants.map (·.1)).Nodup
  linkless : ∀ d ∈ n.descendants, d.2.isLink = false

theorem exists_entry_of_mem_entriesDescendants {es : List (String × Node)}
    {d : List String × Node} (h : d ∈ entriesDescendants es) :
    ∃ name n rest, d.1 = name :: rest ∧ (name, n) ∈ es := by
  induction es with
  | nil => cases h
  | cons e es ih =>
    obtain ⟨name, n⟩ := e
    rw [entriesDescendants, List.mem_append, List.mem_cons, List.mem_map] at h
    rcases h with (rfl | ⟨d', -, rfl⟩) | h
    · exact ⟨name, n, [], rfl, List.mem_cons_self⟩
    · exact ⟨name, n, d'.1, rfl, List.mem_cons_self⟩
    · obtain ⟨name', n', rest, hd, hm⟩ := ih h
      exact ⟨name', n', rest, hd, List.mem_cons_of_mem _ hm⟩

theorem entriesDescendants_sublist {es : List (String × Node)} {name : String} {n : Node}
    (h : (name, n) ∈ es) :
    List.Sublist (n.descendants.map fun d => (name :: d.1, d.2)) (entriesDescendants es) := by
  induction es with
  | nil => cases h
  | cons e es ih =>
    obtain ⟨key, m⟩ := e
    rw [entriesDescendants]
    rcases List.mem_cons.mp h with he | h
    · cases he
      exact (List.sublist_cons_self ..).trans (List.sublist_append_left ..)
    · exact (ih h).trans (List.sublist_append_right ..)

theorem descendants_sublist_of_descend? {n m : Node} {place : List String}
    (h : n.descend? place = some m) :
    List.Sublist (m.descendants.map fun d => (place ++ d.1, d.2)) n.descendants := by
  induction place generalizing n with
  | nil =>
    cases h
    simp
  | cons name place ih =>
    obtain ⟨child, hc, hm⟩ := Option.bind_eq_some_iff.mp h
    cases n with
    | file | link => cases hc
    | folder es =>
      rw [descendants]
      have hchild := (ih hm).map fun d => (name :: d.1, d.2)
      rw [List.map_map] at hchild
      exact hchild.trans (entriesDescendants_sublist (Assoc.mem_of_get? hc))

theorem mem_descendants_below {n m : Node} {place : List String}
    (h : n.descend? place = some m) {d : List String × Node} (hd : d ∈ m.descendants) :
    (place ++ d.1, d.2) ∈ n.descendants :=
  (descendants_sublist_of_descend? h).subset
    (List.mem_map_of_mem (f := fun d : List String × Node => (place ++ d.1, d.2)) hd)

theorem nodup_of_nodup_below {place : List String} {ds : List (List String × Node)}
    (h : ((ds.map fun d => (place ++ d.1, d.2)).map (·.1)).Nodup) : (ds.map (·.1)).Nodup := by
  rw [List.map_map, show ((·.1) ∘ fun d : List String × Node => (place ++ d.1, d.2)) =
    (place ++ ·) ∘ (·.1) from rfl, ← List.map_map] at h
  exact List.Pairwise.of_map (place ++ ·) (fun _ _ hne he => hne (congrArg _ he)) h

mutual

theorem descend?_of_mem_descendants {n : Node} (hu : (n.descendants.map (·.1)).Nodup)
    {d : List String × Node} (hd : d ∈ n.descendants) : n.descend? d.1 = some d.2 := by
  cases n with
  | file => cases hd
  | link => cases hd
  | folder es => exact descend?_of_mem_entriesDescendants hu hd

theorem descend?_of_mem_entriesDescendants {es : List (String × Node)}
    (hu : ((entriesDescendants es).map (·.1)).Nodup) {d : List String × Node}
    (hd : d ∈ entriesDescendants es) : (folder es).descend? d.1 = some d.2 := by
  cases es with
  | nil => cases hd
  | cons e es =>
    obtain ⟨name, n⟩ := e
    rw [entriesDescendants, List.map_append] at hu
    obtain ⟨hhead, hrest, hdisjoint⟩ := List.nodup_append.mp hu
    rw [entriesDescendants, List.mem_append, List.mem_cons, List.mem_map] at hd
    rcases hd with (rfl | ⟨d', hd, rfl⟩) | hd
    · simp [descend?, entries, Assoc.get?_cons]
    · have hbelow : (n.descendants.map (·.1)).Nodup := by
        rw [List.map_cons, List.nodup_cons] at hhead
        exact @nodup_of_nodup_below [name] _ hhead.2
      simpa [descend?, entries, Assoc.get?_cons] using descend?_of_mem_descendants hbelow hd
    · -- a later entry of the first name would put one place into the list twice
      obtain ⟨key, m, rest, hkey, hm⟩ := exists_entry_of_mem_entriesDescendants hd
      have hne : key ≠ name := by
        rintro rfl
        refine hdisjoint [key] (by simp) [key] ?_ rfl
        exact List.mem_map_of_mem (mem_entriesDescendants hm).1
      have hfound := descend?_of_mem_entriesDescendants hrest hd
      rw [hkey] at hfound ⊢
      simpa [descend?, entries, Assoc.get?_cons, hne] using hfound

end

theorem IsPlain.of_descend? {n m : Node} (hn : n.IsPlain) {place : List String}
    (h : n.descend? place = some m) : m.IsPlain where
  named _ hd name hname :=
    hn.named _ (mem_descendants_below h hd) name (List.mem_append_right _ hname)
  unique :=
    nodup_of_nodup_below (((descendants_sublist_of_descend? h).map (·.1)).nodup hn.unique)
  linkless d hd := hn.linkless (place ++ d.1, d.2) (mem_descendants_below h hd)

theorem IsPlain.mem_descendants_iff {n m : Node} (hn : n.IsPlain) {names : List String}
    (hne : names ≠ []) : (names, m) ∈ n.descendants ↔ n.descend? names = some m :=
  ⟨descend?_of_mem_descendants hn.unique, mem_descendants_of_descend? hne⟩

theorem IsPlain.not_mem_dots {n m : Node} (hn : n.IsPlain) {names : List String}
    (h : n.descend? names = some m) : ".." ∉ names := by
  intro hm
  have hbelow := (hn.mem_descendants_iff (List.ne_nil_of_mem hm)).mpr h
  exact (hn.named _ hbelow _ hm).ne_dots rfl

end Node

namespace FileTree

variable {t : FileTree} {p : Path} {n m : Node} {names : List String}

theorem locate_append {links : Nat} {place goal : List String}
    (h : t.locate links place names = .ok goal) :
    ∃ rest, ∀ more, t.locate links place (names ++ more) = t.locate rest goal more := by
  fun_induction locate t links place names with
  | case1 =>
    cases h
    exact ⟨_, fun more => rfl⟩
  | case2 links place names es hplace ih =>
    obtain ⟨rest, hrest⟩ := ih h
    refine ⟨rest, fun more => ?_⟩
    rw [List.cons_append, locate, hplace]
    simpa using hrest more
  | case3 => cases h
  | case4 => cases h
  | case5 place name names es hplace hname links target hget ih =>
    obtain ⟨rest, hrest⟩ := ih h
    refine ⟨rest, fun more => ?_⟩
    rw [List.cons_append, locate, hplace]
    simpa [hname, hget] using hrest more
  | case6 place name names es hplace hname n links hzero hsucc hget ih =>
    obtain ⟨rest, hrest⟩ := ih h
    refine ⟨rest, fun more => ?_⟩
    rw [List.cons_append, locate, hplace]
    cases n with
    | link target =>
      cases links with
      | zero => exact (hzero target rfl rfl).elim
      | succ links => exact (hsucc target links rfl rfl).elim
    | file => simpa [hname, hget] using hrest more
    | folder => simpa [hname, hget] using hrest more
  | case7 => cases h
  | case8 => cases h

theorem locate_below (links : Nat) {place : List String} (hplace : t.root.descend? place = some n)
    (hn : ∀ d ∈ n.descendants, d.2.isLink = false) (hdots : ".." ∉ names) :
    (∃ m, n.descend? names = some m ∧ t.locate links place names = .ok (place ++ names)) ∨
      n.descend? names = none ∧ ∃ fault, t.locate links place names = .error fault := by
  induction names generalizing place n with
  | nil => exact .inl ⟨n, rfl, by simp [locate]⟩
  | cons name names ih =>
    rw [List.mem_cons, not_or] at hdots
    obtain ⟨hname, hdots⟩ := hdots
    cases n with
    | file | link => exact .inr ⟨rfl, .notFolder, by rw [locate, hplace]⟩
    | folder es =>
      rw [locate, hplace, Node.descend?]
      simp only [if_neg (Ne.symm hname)]
      cases hget : Assoc.get? es name with
      | none => exact .inr ⟨by simp [Node.entries, hget], t.absence name, rfl⟩
      | some child =>
        obtain ⟨hself, hbelow⟩ := Node.mem_entriesDescendants (Assoc.mem_of_get? hget)
        rw [Node.descendants] at hn
        have hchild := (descend?_concat_of_folder hplace name).trans hget
        have hnext := ih hchild (fun d hd => hn (name :: d.1, d.2) (hbelow d hd)) hdots
        rw [List.append_assoc] at hnext
        have hlink : child.isLink = false := hn _ hself
        cases child with
        | link => cases hlink
        | file => simpa [Node.entries, hget] using hnext
        | folder => simpa [Node.entries, hget] using hnext

theorem node_join_iff (hp : t.node p = .ok n) (hn : ∀ d ∈ n.descendants, d.2.isLink = false)
    (hdots : ".." ∉ names) :
    t.node (p.join ⟨.relative, names⟩) = .ok m ↔ n.descend? names = some m := by
  obtain ⟨place, hplace, hfound⟩ := exists_place_of_node hp
  obtain ⟨rest, hrest⟩ := locate_append hplace
  have hjoin : t.locate maxLinks [] (p.join ⟨.relative, names⟩).parts = t.locate rest place names :=
    hrest names
  rcases locate_below rest hfound hn hdots with ⟨m', hm, hl⟩ | ⟨hm, fault, hl⟩
  · have hgoal : t.root.descend? (place ++ names) = some m' := by
      rw [Node.descend?_append, hfound]
      exact hm
    rw [node_of_locate (hjoin.trans hl), hgoal, hm]
    simp
  · rw [node_of_locate_eq_error (hjoin.trans hl), hm]
    simp

theorem node_join (hp : t.node p = .ok n) (hn : n.IsPlain) (h : n.descend? names = some m) :
    t.node (p.join ⟨.relative, names⟩) = .ok m :=
  (node_join_iff hp hn.linkless (hn.not_mem_dots h)).mpr h

theorem locate_of_isDirect_of_descend? {links : Nat} {place : List String}
    (hplace : t.root.descend? (place ++ names) = some n) (h : t.IsDirect (place ++ names)) :
    t.locate links place names = .ok (place ++ names) := by
  induction names generalizing place with
  | nil => rw [locate, List.append_nil]
  | cons name names ih =>
    obtain ⟨hname, hlink⟩ := h place name ⟨names, by simp⟩
    rw [List.append_cons] at hplace h ⊢
    obtain ⟨child, hc, -⟩ := Option.bind_eq_some_iff.mp (Node.descend?_append .. ▸ hplace)
    obtain ⟨above, ha, hget⟩ := Option.bind_eq_some_iff.mp (Node.descend?_concat .. ▸ hc)
    cases above with
    | file | link => cases hget
    | folder es =>
      change Assoc.get? es name = some child at hget
      rw [locate, ha]
      simp only [if_neg hname, hget]
      cases child with
      | link target => exact absurd hc (hlink target)
      | file => exact ih hplace h
      | folder => exact ih hplace h

theorem node_canonical (h : t.node p = .ok n) : t.node (t.canonical p) = .ok n := by
  obtain ⟨used, goal, hleads, hgoal⟩ := leads_of_node h
  have hlocate : t.locate maxLinks [] goal = .ok goal :=
    locate_of_isDirect_of_descend? hgoal (hleads.isDirect isDirect_nil)
  rw [hleads.canonical_eq, node_of_locate hlocate, hgoal]
  rfl

structure SameLinks (t t' : FileTree) : Prop where
  link_iff : ∀ place target, place ≠ [] →
    (t.root.descend? place = some (.link target) ↔ t'.root.descend? place = some (.link target))
  loopless : ∀ p : Path, t.node (t.canonical p) ≠ .error .tooManyLinks
  loopless' : ∀ p : Path, t'.node (t'.canonical p) ≠ .error .tooManyLinks

theorem SameLinks.of_links_eq_nil {t' : FileTree} (h : t.links = []) (h' : t'.links = []) :
    SameLinks t t' where
  link_iff _ target hne :=
    iff_of_false (not_link_of_links_eq_nil h hne target) (not_link_of_links_eq_nil h' hne target)
  loopless := node_canonical_of_links_eq_nil h
  loopless' := node_canonical_of_links_eq_nil h'

theorem SameLinks.canonical_eq {t' : FileTree} (h : SameLinks t t') (p : Path) :
    t.canonical p = t'.canonical p := by
  rw [canonical, canonical, follow_congr h.link_iff]

theorem canonical?_of_loopless (h : t.node (t.canonical p) ≠ .error .tooManyLinks) :
    t.canonical? p = if p.parts.any (·.contains '\x00') then .error .nullCharacter
      else .ok (t.canonical p) := by
  unfold canonical?
  split
  · rfl
  · split
    · rename_i hloop
      exact absurd hloop h
    · rfl

theorem SameLinks.canonical?_eq {t' : FileTree} (h : SameLinks t t') (p : Path) :
    t.canonical? p = t'.canonical? p := by
  rw [canonical?_of_loopless (h.loopless p), canonical?_of_loopless (h.loopless' p), h.canonical_eq]

end FileTree

end WorkspaceCycles
