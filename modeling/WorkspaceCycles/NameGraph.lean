import WorkspaceCycles.Assoc

namespace WorkspaceCycles

structure NameGraph where
  nodes : List String
  forward : List (String × List String)
deriving Repr

namespace NameGraph

def neighbours (g : NameGraph) (name : String) : List String :=
  (Assoc.get? g.forward name).getD []

def names (g : NameGraph) : List String :=
  g.nodes ++ g.forward.flatMap (·.2)

theorem mem_names_of_mem_neighbours {g : NameGraph} {name next : String}
    (h : next ∈ g.neighbours name) : next ∈ g.names := by
  unfold neighbours at h
  cases hf : Assoc.get? g.forward name with
  | none => simp [hf] at h
  | some targets =>
    rw [hf] at h
    exact List.mem_append_right _
      (List.mem_flatMap.2 ⟨(name, targets), Assoc.mem_of_get? hf, h⟩)

def targetsOf (entries : List (String × List String)) (name : String) : List String :=
  ((entries.filter (·.1 == name)).flatMap (·.2)).eraseDups

def ofEntries (entries : List (String × List String)) : NameGraph :=
  let nodes := (entries.map (·.1)).eraseDups
  { nodes, forward := nodes.map fun name => (name, targetsOf entries name) }

theorem mem_nodes_ofEntries {entries : List (String × List String)} {name : String} :
    name ∈ (ofEntries entries).nodes ↔ ∃ e ∈ entries, e.1 = name := by
  simp [ofEntries, List.mem_eraseDups]

theorem neighbours_ofEntries (entries : List (String × List String)) (name : String) :
    (ofEntries entries).neighbours name = targetsOf entries name := by
  change (Assoc.get? ((ofEntries entries).nodes.map fun n => (n, targetsOf entries n)) name).getD []
    = _
  by_cases h : name ∈ (ofEntries entries).nodes
  · rw [Assoc.get?_map_of_mem _ h]
    rfl
  · have hnil : entries.filter (·.1 == name) = [] := by
      rw [List.filter_eq_nil_iff]
      intro e he
      simpa using fun hn => h (mem_nodes_ofEntries.mpr ⟨e, he, hn⟩)
    rw [Assoc.get?_map_of_not_mem _ h, targetsOf, hnil]
    rfl

theorem mem_neighbours_ofEntries {entries : List (String × List String)} {name next : String} :
    next ∈ (ofEntries entries).neighbours name ↔ ∃ e ∈ entries, e.1 = name ∧ next ∈ e.2 := by
  simp [neighbours_ofEntries, targetsOf, List.mem_eraseDups, and_assoc]

end NameGraph

end WorkspaceCycles
