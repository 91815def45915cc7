import WorkspaceCycles.Proofs.DependencyScan
import WorkspaceCycles.Proofs.SearchEdges

namespace WorkspaceCycles

theorem Cycle.distinct_eq_self_of_plain {cs : List Cycle} (hne : ∀ c ∈ cs, c ≠ [])
    (hplain : ∀ c ∈ cs, c.Plain) (h : cs.Pairwise fun c d => ¬ c ~r d) : distinct cs = cs := by
  apply distinct_eq_self
  refine h.imp_of_mem ?_
  intro c d hc hd hr hk
  exact hr ((key_eq_iff (hne c hc) (hne d hd) (hplain c hc) (hplain d hd)).mp hk)

theorem Cycle.not_isIgnoredBySets (c : Cycle) (sets : List (List String)) :
    (!c.isIgnoredBySets sets) = decide (∀ members ∈ sets, ∃ x ∈ members, x ∉ c) := by
  rw [Bool.eq_iff_iff, decide_eq_true_iff]
  simp [isIgnoredBySets]

namespace NameGraph

theorem nodup_neighbours_ofPackages (packages : List Package) (name : String) :
    ((ofPackages packages).neighbours name).Nodup := by
  unfold neighbours
  cases hf : Assoc.get? (ofPackages packages).forward name with
  | none => exact .nil
  | some targets =>
    obtain ⟨node, -, he⟩ := List.mem_map.mp (Assoc.mem_of_get? hf)
    cases he
    exact nodup_eraseDups _

theorem distinct_witnesses {packages : List Package} (hp : ∀ p ∈ packages, ' ' ∉ p.name.toList) :
    Cycle.distinct (ofPackages packages).witnesses = (ofPackages packages).witnesses :=
  Cycle.distinct_eq_self_of_plain (fun _ hc => (isClosedWalk_of_mem_witnesses hc).1.ne_nil)
    (fun _ hc => plain_of_mem_witnesses hp hc)
    (pairwise_not_isRotated_witnesses (nodup_neighbours_ofPackages packages))

end NameGraph

namespace Workspace

/-- No edge closes two witnesses and no witness is a rotation of another one. So if there are no
spaces in the names of the packages, all witnesses are distinct, and each one that leaves out a
member of every set has its issue, in the order of the search. -/
theorem issue_for_each_back_edge (packages : List Package) :
    ((NameGraph.ofPackages packages).witnesses.map Cycle.closing?).Nodup ∧
    (∀ w ∈ (NameGraph.ofPackages packages).witnesses, ∃ e, w.closing? = some e) ∧
    (NameGraph.ofPackages packages).witnesses.Pairwise (fun c d => ¬ c ~r d) ∧
    ((∀ p ∈ packages, ' ' ∉ p.name.toList) →
      Cycle.distinct (NameGraph.ofPackages packages).witnesses =
        (NameGraph.ofPackages packages).witnesses ∧
      ∀ s : CircularSettings, ∃ issues, (scan s packages).map (·.1) = .ok issues ∧
        List.Forall₂ (fun c i => Issue.ofWorkspaceCycle s c = .ok i)
          ((NameGraph.ofPackages packages).witnesses.filter fun c =>
            ∀ members ∈ s.ignorePackageCycles, ∃ x ∈ members, x ∉ c) issues) := by
  have hnb := NameGraph.nodup_neighbours_ofPackages packages
  refine ⟨NameGraph.nodup_closing_witnesses hnb, ?_,
    NameGraph.pairwise_not_isRotated_witnesses hnb, fun hp => ?_⟩
  · intro w hw
    exact Cycle.exists_closing? (NameGraph.isClosedWalk_of_mem_witnesses hw).1.ne_nil
  · have hd := NameGraph.distinct_witnesses hp
    refine ⟨hd, fun s => ?_⟩
    obtain ⟨issues, hi, hall⟩ := exists_scan s packages
    refine ⟨issues, hi, ?_⟩
    rw [hd] at hall
    simpa only [Cycle.not_isIgnoredBySets] using hall

theorem issue_for_each_back_edge_detour :
    (∀ p ∈ detour, ' ' ∉ p.name.toList) ∧
    ∃ issues, (scan { ignorePackageCycles := [["x", "c"]] } detour).map (·.1) = .ok issues ∧
      List.Forall₂ (fun c i => Issue.ofWorkspaceCycle { ignorePackageCycles := [["x", "c"]] } c = .ok i)
        [["a", "x", "b"]] issues := by
  have hp : ∀ p ∈ detour, ' ' ∉ p.name.toList := by decide
  obtain ⟨-, -, -, h⟩ := issue_for_each_back_edge detour
  obtain ⟨issues, hi, hall⟩ := (h hp).2 { ignorePackageCycles := [["x", "c"]] }
  rw [witnesses_detour] at hall
  exact ⟨hp, issues, hi, hall⟩

end Workspace

end WorkspaceCycles
