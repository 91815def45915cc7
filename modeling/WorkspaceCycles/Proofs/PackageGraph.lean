import WorkspaceCycles.Proofs.DependencyScan

namespace WorkspaceCycles

structure FirstSeen (xs ys : List String) : Prop where
  nodup : ys.Nodup
  mem_iff : ∀ a, a ∈ ys ↔ a ∈ xs
  ordered : ys.Pairwise fun a b => xs.idxOf a < xs.idxOf b

theorem eraseDups_concat (xs : List String) (x : String) :
    (xs ++ [x]).eraseDups = if x ∈ xs then xs.eraseDups else xs.eraseDups ++ [x] := by
  rw [List.eraseDups_append]
  by_cases hx : x ∈ xs
  · simp [List.removeAll, hx]
  · simp [List.removeAll, hx, List.eraseDups_cons]

theorem firstSeen_eraseDups (xs : List String) : FirstSeen xs xs.eraseDups where
  nodup := nodup_eraseDups xs
  mem_iff _ := List.mem_eraseDups
  ordered := by
    induction xs using List.reverseRecOn with
    | nil => exact .nil
    | append_singleton xs x ih =>
      have hold : xs.eraseDups.Pairwise fun a b => (xs ++ [x]).idxOf a < (xs ++ [x]).idxOf b := by
        refine ih.imp_of_mem fun {a b} ha hb hlt => ?_
        rwa [List.idxOf_append_of_mem (List.mem_eraseDups.mp ha),
          List.idxOf_append_of_mem (List.mem_eraseDups.mp hb)]
      rw [eraseDups_concat]
      split
      · exact hold
      · rename_i hx
        refine List.pairwise_append.mpr ⟨hold, List.pairwise_singleton _ _, fun a ha b hb => ?_⟩
        have hlt := List.idxOf_lt_length_iff.mpr (List.mem_eraseDups.mp ha)
        rw [List.mem_singleton.mp hb, List.idxOf_append_of_mem (List.mem_eraseDups.mp ha),
          List.idxOf_append_of_notMem hx]
        omega

theorem eraseDups_eraseDups (xs : List String) : xs.eraseDups.eraseDups = xs.eraseDups := by
  induction xs using List.reverseRecOn with
  | nil => rfl
  | append_singleton xs x ih =>
    rw [eraseDups_concat]
    split
    · exact ih
    · rename_i hx
      rw [eraseDups_concat, if_neg (by rwa [List.mem_eraseDups]), ih]

theorem eraseDups_filter (p : String → Bool) (xs : List String) :
    (xs.filter p).eraseDups = xs.eraseDups.filter p := by
  induction xs using List.reverseRecOn with
  | nil => rfl
  | append_singleton xs x ih =>
    rw [List.filter_append, eraseDups_concat]
    by_cases hp : p x = true
    · rw [List.filter_cons_of_pos hp, List.filter_nil, eraseDups_concat, ih]
      by_cases hx : x ∈ xs <;> simp [hx, hp]
    · rw [List.filter_cons_of_neg hp, List.filter_nil, List.append_nil, ih]
      by_cases hx : x ∈ xs <;> simp [hx, hp]

theorem eraseDups_append_congr {xs xs' ys ys' : List String} (hx : xs.eraseDups = xs'.eraseDups)
    (hy : ys.eraseDups = ys'.eraseDups) : (xs ++ ys).eraseDups = (xs' ++ ys').eraseDups := by
  have hmem : ∀ a, a ∈ xs ↔ a ∈ xs' := by
    intro a
    rw [← List.mem_eraseDups, hx, List.mem_eraseDups]
  rw [List.eraseDups_append, List.eraseDups_append, List.removeAll, List.removeAll,
    eraseDups_filter, eraseDups_filter, hx, hy]
  simp only [List.elem_eq_mem, hmem]

theorem eraseDups_flatMap_congr {α : Type} {f g : α → List String} (xs : List α)
    (h : ∀ x ∈ xs, (f x).eraseDups = (g x).eraseDups) :
    (xs.flatMap f).eraseDups = (xs.flatMap g).eraseDups := by
  induction xs with
  | nil => rfl
  | cons x xs ih =>
    obtain ⟨hx, hxs⟩ := List.forall_mem_cons.mp h
    rw [List.flatMap_cons, List.flatMap_cons]
    exact eraseDups_append_congr hx (ih hxs)

namespace Assoc

variable {α : Type}

theorem keys_extend (m pairs : List (String × α)) :
    keys (extend m pairs) = keys m ++ ((keys pairs).filter (· ∉ keys m)).eraseDups := by
  induction pairs generalizing m with
  | nil => simp [extend, keys]
  | cons p pairs ih =>
    change keys (extend (set m p.1 p.2) pairs) = keys m ++ ((p.1 :: keys pairs).filter _).eraseDups
    rw [ih, keys_set]
    by_cases hp : p.1 ∈ keys m
    · rw [if_pos hp, List.filter_cons_of_neg (by simpa using hp)]
    · have hrest : (keys pairs).filter (· ∉ keys m ++ [p.1]) =
          ((keys pairs).filter (· ∉ keys m)).filter fun k => !k == p.1 := by
        rw [List.filter_filter]
        apply List.filter_congr
        intro k _
        by_cases hk : k = p.1 <;> simp [hk]
      rw [if_neg hp, List.filter_cons_of_pos (by simpa using hp), List.eraseDups_cons, hrest,
        List.append_assoc, List.singleton_append]

theorem keys_ofPairs (pairs : List (String × α)) : keys (ofPairs pairs) = (keys pairs).eraseDups := by
  rw [ofPairs, keys_extend]
  simp [keys]

theorem get?_extend (m pairs : List (String × α)) (k : String) :
    get? (extend m pairs) k = (get? (ofPairs pairs) k).or (get? m k) := by
  induction pairs generalizing m with
  | nil => rfl
  | cons p pairs ih =>
    change get? (extend (set m p.1 p.2) pairs) k = (get? (extend (set [] p.1 p.2) pairs) k).or _
    rw [ih, ih (set [] p.1 p.2), get?_set, get?_set]
    cases get? (ofPairs pairs) k with
    | some v => rfl
    | none => by_cases hk : k = p.1 <;> simp [hk]

theorem keys_filter {m : List (String × α)} (h : (keys m).Nodup) (p : α → Bool) :
    keys (m.filter fun e => p e.2) = (keys m).filter fun k => (get? m k).any p := by
  induction m with
  | nil => rfl
  | cons e m ih =>
    obtain ⟨k, v⟩ := e
    obtain ⟨hk, hm⟩ := List.nodup_cons.mp h
    have hhead : get? ((k, v) :: m) k = some v := by rw [get?_cons, if_pos rfl]
    have hrest : (keys m).filter (fun k' => (get? ((k, v) :: m) k').any p) =
        keys (m.filter fun e => p e.2) := by
      rw [ih hm]
      apply List.filter_congr
      intro k' hk'
      have hne : k' ≠ k := by
        rintro rfl
        exact hk hk'
      rw [get?_cons, if_neg hne]
    change ((((k, v) :: m).filter fun e => p e.2).map (·.1)) = (k :: keys m).filter _
    simp only [List.filter_cons, hhead, hrest, Option.any_some]
    cases p v <;> rfl

end Assoc

namespace Package

def specifier? (p : Package) (name : String) : Option String :=
  (Assoc.get? (Assoc.ofPairs p.devDependencies) name).or
    (Assoc.get? (Assoc.ofPairs p.dependencies) name)

def Needs (p : Package) (name : String) : Prop :=
  ∃ s, p.specifier? name = some s ∧ "workspace:".toList <+: s.toList

def namedDependencies (p : Package) : List String :=
  Assoc.keys p.dependencies ++ (Assoc.keys p.devDependencies).filter (· ∉ Assoc.keys p.dependencies)

theorem any_specifier?_iff {p : Package} {name : String} :
    (p.specifier? name).any isWorkspaceSpecifier = true ↔ p.Needs name := by
  simp [Needs, Option.any_eq_true, isWorkspaceSpecifier, workspaceProtocol]

instance (p : Package) (name : String) : Decidable (p.Needs name) :=
  decidable_of_iff _ any_specifier?_iff

theorem get?_specifiers (p : Package) (name : String) :
    Assoc.get? p.specifiers name = p.specifier? name := by
  rw [specifiers, Assoc.get?_extend]
  rfl

theorem keys_specifiers (p : Package) : Assoc.keys p.specifiers = p.namedDependencies.eraseDups := by
  have hmem : ∀ k, k ∈ Assoc.keys (Assoc.ofPairs p.dependencies) ↔ k ∈ Assoc.keys p.dependencies := by
    intro k
    rw [Assoc.keys_ofPairs, List.mem_eraseDups]
  rw [specifiers, Assoc.keys_extend, namedDependencies, List.eraseDups_append, List.removeAll,
    List.filter_filter, Assoc.keys_ofPairs]
  simp [List.mem_eraseDups]

theorem Needs.mem_namedDependencies {p : Package} {name : String} (h : p.Needs name) :
    name ∈ p.namedDependencies := by
  obtain ⟨s, hs, -⟩ := h
  rw [← get?_specifiers] at hs
  have hkey : name ∈ Assoc.keys p.specifiers := List.mem_map_of_mem (Assoc.mem_of_get? hs)
  rwa [keys_specifiers, List.mem_eraseDups] at hkey

theorem workspaceDependencies_eq (p : Package) :
    p.workspaceDependencies = (p.namedDependencies.filter fun name => p.Needs name).eraseDups := by
  have hnodup : (Assoc.keys p.specifiers).Nodup := by
    rw [keys_specifiers]
    exact nodup_eraseDups _
  change Assoc.keys (p.specifiers.filter fun d => isWorkspaceSpecifier d.2) = _
  rw [Assoc.keys_filter hnodup, keys_specifiers, ← eraseDups_filter]
  congr 1
  apply List.filter_congr
  intro name _
  rw [get?_specifiers, Bool.eq_iff_iff, any_specifier?_iff, decide_eq_true_iff]

end Package

namespace NameGraph

variable {packages : List Package}

def neededBy (packages : List Package) (name : String) : List String :=
  (packages.filter (·.name == name)).flatMap fun p =>
    p.namedDependencies.filter fun next => p.Needs next ∧ ∃ q ∈ packages, q.name = next

theorem mem_neededBy {name next : String} : next ∈ neededBy packages name ↔
    (∃ q ∈ packages, q.name = next) ∧ ∃ p ∈ packages, p.name = name ∧ p.Needs next := by
  simp only [neededBy, List.mem_flatMap, List.mem_filter, beq_iff_eq, decide_eq_true_iff]
  constructor
  · rintro ⟨p, ⟨hp, hname⟩, -, hneeds, hknown⟩
    exact ⟨hknown, p, hp, hname, hneeds⟩
  · rintro ⟨hknown, p, hp, hname, hneeds⟩
    exact ⟨p, ⟨hp, hname⟩, hneeds.mem_namedDependencies, hneeds, hknown⟩

theorem targets_ofPackages (packages : List Package) (name : String) :
    ((packages.filter (·.name == name)).flatMap fun p =>
      p.workspaceDependencies.filter (· ∈ (ofPackages packages).nodes)).eraseDups =
        (neededBy packages name).eraseDups := by
  apply eraseDups_flatMap_congr
  intro p _
  have hknown : ∀ next, next ∈ (ofPackages packages).nodes ↔ ∃ q ∈ packages, q.name = next :=
    fun _ => mem_nodes_ofPackages
  rw [Package.workspaceDependencies_eq, ← eraseDups_filter, eraseDups_eraseDups, List.filter_filter]
  simp only [hknown, Bool.decide_and, Bool.and_comm]

theorem forward_ofPackages (packages : List Package) : (ofPackages packages).forward =
    (ofPackages packages).nodes.map fun name => (name, (neededBy packages name).eraseDups) := by
  simp only [← targets_ofPackages]
  rfl

theorem neighbours_ofPackages (packages : List Package) (name : String) :
    (ofPackages packages).neighbours name = (neededBy packages name).eraseDups := by
  rw [neighbours, forward_ofPackages]
  by_cases h : name ∈ (ofPackages packages).nodes
  · rw [Assoc.get?_map_of_mem _ h]
    rfl
  · have hnil : packages.filter (·.name == name) = [] := by
      rw [List.filter_eq_nil_iff]
      intro p hp
      simpa using fun hn => h (mem_nodes_ofPackages.mpr ⟨p, hp, hn⟩)
    rw [Assoc.get?_map_of_not_mem _ h, neededBy, hnil]
    rfl

/-- The nodes are the names of the packages in the order in which they come up, each of them leads
to the packages that its entries need, and these come in the order of the entries. -/
theorem packages_graph_exact (packages : List Package) :
    FirstSeen (packages.map (·.name)) (ofPackages packages).nodes ∧
      (ofPackages packages).forward =
        (ofPackages packages).nodes.map (fun name => (name, (ofPackages packages).neighbours name)) ∧
      ∀ name, FirstSeen (neededBy packages name) ((ofPackages packages).neighbours name) ∧
        ∀ next, next ∈ (ofPackages packages).neighbours name ↔
          (∃ q ∈ packages, q.name = next) ∧ ∃ p ∈ packages, p.name = name ∧ p.Needs next := by
  refine ⟨firstSeen_eraseDups _, ?_, fun name => ⟨?_, fun next => ?_⟩⟩
  · simp only [forward_ofPackages, neighbours_ofPackages]
  · rw [neighbours_ofPackages]
    exact firstSeen_eraseDups _
  · rw [neighbours_ofPackages, List.mem_eraseDups, mem_neededBy]

end NameGraph

end WorkspaceCycles
