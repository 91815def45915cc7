import Mathlib
import WorkspaceCycles.Check
import WorkspaceCycles.Proofs.DistinctCycles
import WorkspaceCycles.Proofs.SearchCover

namespace WorkspaceCycles

namespace NameGraph

theorem mem_nodes_ofPackages {packages : List Package} {name : String} :
    name ∈ (ofPackages packages).nodes ↔ ∃ p ∈ packages, p.name = name := by
  simp [ofPackages, List.mem_eraseDups]

theorem mem_nodes_of_mem_neighbours {packages : List Package} {a b : String}
    (h : b ∈ (ofPackages packages).neighbours a) : a ∈ (ofPackages packages).nodes := by
  unfold neighbours at h
  cases hf : Assoc.get? (ofPackages packages).forward a with
  | none => simp [hf] at h
  | some targets =>
    obtain ⟨name, hn, he⟩ := List.mem_map.mp (Assoc.mem_of_get? hf)
    cases he
    exact hn

theorem mem_nodes_of_isClosedWalk {packages : List Package} {c : Cycle}
    (hc : (ofPackages packages).IsClosedWalk c) {x : String} (hx : x ∈ c) :
    x ∈ (ofPackages packages).nodes := by
  obtain ⟨y, -, he⟩ := Cycle.exists_edge_of_mem hx
  exact mem_nodes_of_mem_neighbours (hc.edge _ he)

theorem exists_witness_of_isClosedWalk {packages : List Package} {c : Cycle}
    (hc : (ofPackages packages).IsClosedWalk c) :
    ∃ w ∈ (ofPackages packages).witnesses, ∃ e ∈ c.edges, w.closing? = some e := by
  obtain ⟨x, hx⟩ := List.exists_mem_of_ne_nil c hc.ne_nil
  exact exists_closing_mem_edges hc hx (reached_of_mem_nodes (mem_nodes_of_isClosedWalk hc hx))

theorem plain_of_mem_witnesses {packages : List Package}
    (hp : ∀ p ∈ packages, ' ' ∉ p.name.toList) {w : Cycle}
    (hw : w ∈ (ofPackages packages).witnesses) : w.Plain := by
  obtain ⟨hc, hn, -⟩ := isClosedWalk_of_mem_witnesses hw
  refine ⟨hn, fun x hx => ?_⟩
  obtain ⟨p, hm, rfl⟩ := mem_nodes_ofPackages.mp (mem_nodes_of_isClosedWalk hc hx)
  exact hp p hm

end NameGraph

theorem Cycle.isIgnoredBySets_of_isRotated {c d : Cycle} (h : c ~r d)
    (sets : List (List String)) : c.isIgnoredBySets sets = d.isIgnoredBySets sets := by
  unfold isIgnoredBySets
  simp only [h.mem_iff]

namespace Workspace

theorem mapM_ofWorkspaceCycle (s : CircularSettings) {cs : List Cycle} (h : ∀ c ∈ cs, c ≠ []) :
    ∃ issues, cs.mapM (Issue.ofWorkspaceCycle s) = .ok issues ∧
      List.Forall₂ (fun c i => Issue.ofWorkspaceCycle s c = .ok i) cs issues := by
  induction cs with
  | nil => exact ⟨[], rfl, .nil⟩
  | cons c cs ih =>
    obtain ⟨issues, hm, hall⟩ := ih fun d hd => h d (List.mem_cons_of_mem _ hd)
    cases c with
    | nil => exact absurd rfl (h [] List.mem_cons_self)
    | cons a c =>
      refine ⟨_ :: issues, ?_, .cons rfl hall⟩
      rw [List.mapM_cons, hm]
      rfl

theorem exists_scan (s : CircularSettings) (packages : List Package) :
    ∃ issues, (scan s packages).map (·.1) = .ok issues ∧
      List.Forall₂ (fun c i => Issue.ofWorkspaceCycle s c = .ok i)
        ((Cycle.distinct (NameGraph.ofPackages packages).witnesses).filter
          fun c => !c.isIgnoredBySets s.ignorePackageCycles) issues := by
  have hne : ∀ c ∈ (cycles s packages).2, c ≠ [] := by
    intro c hc
    rw [cycles, List.partition_eq_filter_filter] at hc
    have hw := (Cycle.distinct_sublist _).mem (List.mem_filter.mp hc).1
    exact (NameGraph.isClosedWalk_of_mem_witnesses hw).1.ne_nil
  obtain ⟨issues, hm, hall⟩ := mapM_ofWorkspaceCycle s hne
  refine ⟨issues, ?_, ?_⟩
  · change Except.map _ ((cycles s packages).2.mapM (Issue.ofWorkspaceCycle s) >>= _) = _
    rw [hm]
    rfl
  · rw [cycles, List.partition_eq_filter_filter] at hall
    exact hall

theorem issues_eq_nil_iff {s : CircularSettings} {packages : List Package} {issues : List Issue}
    (h : (scan s packages).map (·.1) = .ok issues) :
    issues = [] ↔ ∀ w ∈ Cycle.distinct (NameGraph.ofPackages packages).witnesses,
      w.isIgnoredBySets s.ignorePackageCycles := by
  obtain ⟨issues', h', hall⟩ := exists_scan s packages
  cases h.symm.trans h'
  rw [← List.length_eq_zero_iff, ← hall.length_eq, List.length_eq_zero_iff,
    List.filter_eq_nil_iff]
  simp

theorem isIgnoredBySets_of_mem_witnesses {packages : List Package}
    (hp : ∀ p ∈ packages, ' ' ∉ p.name.toList) {v w : Cycle}
    (hv : v ∈ (NameGraph.ofPackages packages).witnesses)
    (hw : w ∈ (NameGraph.ofPackages packages).witnesses) (hk : v.key = w.key)
    {sets : List (List String)} (hi : v.isIgnoredBySets sets) : w.isIgnoredBySets sets := by
  have hr : v ~r w := (Cycle.key_eq_iff (NameGraph.isClosedWalk_of_mem_witnesses hv).1.ne_nil
    (NameGraph.isClosedWalk_of_mem_witnesses hw).1.ne_nil (NameGraph.plain_of_mem_witnesses hp hv)
    (NameGraph.plain_of_mem_witnesses hp hw)).mp hk
  rwa [← Cycle.isIgnoredBySets_of_isRotated hr]

/-- If the scan reports nothing then every closed walk uses the closing edge of a witness, and that
witness contains all members of some set; with spaces in names, the first witness of its key does.
Without such names the scan reports nothing only if all witnesses contain all members of a set. -/
theorem closed_walk_meets_ignored_witness (s : CircularSettings) (packages : List Package) :
    ∃ issues, (scan s packages).map (·.1) = .ok issues ∧
      (issues = [] → ∀ c, (NameGraph.ofPackages packages).IsClosedWalk c →
        ∃ w ∈ (NameGraph.ofPackages packages).witnesses, (∃ e ∈ c.edges, w.closing? = some e) ∧
          ∃ v ∈ (NameGraph.ofPackages packages).witnesses, v.key = w.key ∧
            v.isIgnoredBySets s.ignorePackageCycles) ∧
      ((∀ p ∈ packages, ' ' ∉ p.name.toList) →
        (issues = [] ↔ ∀ w ∈ (NameGraph.ofPackages packages).witnesses,
          w.isIgnoredBySets s.ignorePackageCycles)) := by
  obtain ⟨issues, h, -⟩ := exists_scan s packages
  have hiff := issues_eq_nil_iff h
  refine ⟨issues, h, ?_, ?_⟩
  · intro hnil c hc
    obtain ⟨w, hw, he⟩ := NameGraph.exists_witness_of_isClosedWalk hc
    obtain ⟨v, hv, hk⟩ := Cycle.exists_mem_distinct hw
    exact ⟨w, hw, he, v, (Cycle.distinct_sublist _).mem hv, hk, hiff.mp hnil v hv⟩
  · intro hp
    rw [hiff]
    constructor
    · intro hall w hw
      obtain ⟨v, hv, hk⟩ := Cycle.exists_mem_distinct hw
      exact isIgnoredBySets_of_mem_witnesses hp ((Cycle.distinct_sublist _).mem hv) hw hk
        (hall v hv)
    · exact fun hall w hw => hall w ((Cycle.distinct_sublist _).mem hw)

def detour : List Package :=
  let package (name : String) (dependencies : List String) : Package :=
    { name, folder := .top, dependencies := dependencies.map fun d => (d, "workspace:*") }
  [package "a" ["x", "c"], package "x" ["b"], package "b" ["a"], package "c" ["b"]]

theorem witnesses_detour : (NameGraph.ofPackages detour).witnesses = [["a", "x", "b"]] := by
  cbv

theorem closed_walk_without_issue :
    (scan { ignorePackageCycles := [["x", "b"]] } detour).map (·.1) = .ok [] ∧
      (NameGraph.ofPackages detour).IsClosedWalk ["a", "c", "b"] ∧
      Cycle.isIgnoredBySets ["a", "c", "b"] [["x", "b"]] = false := by
  refine ⟨?_, ⟨by simp, by decide⟩, by decide⟩
  obtain ⟨issues, h, -⟩ := exists_scan { ignorePackageCycles := [["x", "b"]] } detour
  have hnil : issues = [] := by
    rw [issues_eq_nil_iff h, witnesses_detour]
    decide
  rw [h, hnil]

end Workspace

end WorkspaceCycles
