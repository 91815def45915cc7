import WorkspaceCycles.Proofs.PackageGraph
import WorkspaceCycles.Proofs.SettingsRules

namespace WorkspaceCycles

def NamesTwo (names : List String) : Prop :=
  ∃ a ∈ names, ∃ b ∈ names, a ≠ b

theorem namesTwo_or_eq_replicate {names : List String} (h : 2 ≤ names.length) :
    NamesTwo names ∨ ∃ n a, 2 ≤ n ∧ names = List.replicate n a := by
  obtain ⟨a, ha⟩ := List.exists_mem_of_length_pos (by omega : 0 < names.length)
  by_cases hall : ∀ b ∈ names, b = a
  · exact .inr ⟨names.length, a, h, List.eq_replicate_length.mpr hall⟩
  · simp only [not_forall] at hall
    obtain ⟨b, hb, hne⟩ := hall
    exact .inl ⟨b, hb, a, ha, hne⟩

namespace Cycle

def IsCovered (c : Cycle) (names : List String) : Prop :=
  ∀ name ∈ names, name ∈ c

theorem isCovered_singleton_iff {a : String} {names : List String} :
    IsCovered [a] names ↔ ∀ name ∈ names, name = a := by
  simp [IsCovered]

theorem isIgnoredBySets_iff {c : Cycle} {sets : List (List String)} :
    c.isIgnoredBySets sets = true ↔ ∃ names ∈ sets, c.IsCovered names := by
  simp [isIgnoredBySets, IsCovered]

end Cycle

namespace Workspace

variable {v : Value} {s : CircularSettings} {packages : List Package}

def passedOver (s : CircularSettings) (packages : List Package) : List Cycle :=
  (cycles s packages).1

theorem mem_passedOver_iff {c : Cycle} : c ∈ passedOver s packages ↔
    c ∈ Cycle.distinct (NameGraph.ofPackages packages).witnesses ∧
      ∃ names ∈ s.ignorePackageCycles, c.IsCovered names := by
  rw [passedOver, cycles, List.partition_eq_filter_filter, List.mem_filter,
    Cycle.isIgnoredBySets_iff]

theorem exists_scan_passedOver (s : CircularSettings) (packages : List Package) :
    ∃ issues, (scan s packages).map (·.1) = .ok issues ∧
      List.Forall₂ (fun c i => Issue.ofWorkspaceCycle s c = .ok i)
        ((Cycle.distinct (NameGraph.ofPackages packages).witnesses).filter
          (· ∉ passedOver s packages)) issues := by
  obtain ⟨issues, hi, hall⟩ := exists_scan s packages
  refine ⟨issues, hi, ?_⟩
  rwa [List.filter_congr fun c hc => ?_] at hall
  rw [Bool.eq_iff_iff, decide_eq_true_iff, mem_passedOver_iff, Bool.not_eq_true',
    ← Bool.not_eq_true, Cycle.isIgnoredBySets_iff]
  simp only [hc, true_and]

section SelfDependence

def selfDependent (a : String) : List Package :=
  [{ name := a, folder := .top, dependencies := [(a, "workspace:*")] }]

theorem isClosedWalk_selfDependent (a : String) :
    (NameGraph.ofPackages (selfDependent a)).IsClosedWalk [a] := by
  have hneeds : ∀ p ∈ selfDependent a, p.name = a ∧ p.Needs a := by
    refine List.forall_mem_singleton.mpr ⟨rfl, "workspace:*", ?_, by decide⟩
    simp [Package.specifier?, Assoc.ofPairs, Assoc.extend, Assoc.set, Assoc.get?_cons]
  obtain ⟨hname, hneeds⟩ := hneeds _ List.mem_cons_self
  refine ⟨by simp, List.forall_mem_singleton.mpr ?_⟩
  rw [NameGraph.neighbours_ofPackages, List.mem_eraseDups, NameGraph.mem_neededBy]
  exact ⟨⟨_, List.mem_cons_self, hname⟩, _, List.mem_cons_self, hname, hneeds⟩

theorem eq_of_mem_witnesses_selfDependent {a : String} {w : Cycle}
    (h : w ∈ (NameGraph.ofPackages (selfDependent a)).witnesses) : w = [a] := by
  obtain ⟨hclosed, hnodup, -⟩ := NameGraph.isClosedWalk_of_mem_witnesses h
  have hall : ∀ x ∈ w, x = a := by
    intro x hx
    obtain ⟨p, hp, rfl⟩ :=
      NameGraph.mem_nodes_ofPackages.mp (NameGraph.mem_nodes_of_isClosedWalk hclosed hx)
    rw [List.mem_singleton.mp hp]
  have hrepeat : w = List.replicate w.length a := List.eq_replicate_length.mpr hall
  have hpos := List.length_pos_of_ne_nil hclosed.ne_nil
  have hle : w.length ≤ 1 := by
    rw [hrepeat] at hnodup
    exact List.nodup_replicate.mp hnodup
  rw [hrepeat, show w.length = 1 by omega, List.replicate_one]

theorem mem_passedOver_selfDependent {a : String} {names : List String}
    (hm : names ∈ s.ignorePackageCycles) (hall : ∀ name ∈ names, name = a) :
    [a] ∈ passedOver s (selfDependent a) := by
  obtain ⟨w, hw, -⟩ := NameGraph.exists_witness_of_isClosedWalk (isClosedWalk_selfDependent a)
  obtain ⟨d, hd, -⟩ := Cycle.exists_mem_distinct hw
  obtain rfl := eq_of_mem_witnesses_selfDependent ((Cycle.distinct_sublist _).mem hd)
  exact mem_passedOver_iff.mpr ⟨hd, names, hm, Cycle.isCovered_singleton_iff.mpr hall⟩

end SelfDependence

theorem names_of_rule (h : CircularSettings.rule v = .valid s) :
    ∀ names ∈ s.ignorePackageCycles,
      NamesTwo names ∨ ∃ n a, 2 ≤ n ∧ names = List.replicate n a :=
  fun names hm => namesTwo_or_eq_replicate ((CircularSettings.isValid_of_rule h).packageSets names hm)

theorem two_le_length_of_isCovered {c : Cycle} {names : List String} (h : NamesTwo names)
    (hc : c.IsCovered names) : 2 ≤ c.length := by
  obtain ⟨a, ha, b, hb, hne⟩ := h
  rcases c with _ | ⟨x, _ | ⟨y, c⟩⟩
  · exact absurd (hc a ha) List.not_mem_nil
  · exact absurd ((List.mem_singleton.mp (hc a ha)).trans (List.mem_singleton.mp (hc b hb)).symm) hne
  · simp

/-- The sets of accepted settings name two packages or repeat the name of one. No cycle of one
package is passed over, and each cycle that is passed over contains two members of every set it is
passed over for, exactly if all sets name two packages. A package that depends on itself is passed
over exactly if a set repeats its name. -/
theorem package_sets_contract (h : CircularSettings.rule v = .valid s) :
    (∀ names ∈ s.ignorePackageCycles,
      NamesTwo names ∨ ∃ n a, 2 ≤ n ∧ names = List.replicate n a) ∧
    ((∀ packages, ∀ c ∈ passedOver s packages, 2 ≤ c.length ∧
        ∀ names ∈ s.ignorePackageCycles, c.IsCovered names →
          ∃ a ∈ names, ∃ b ∈ names, a ≠ b ∧ a ∈ c ∧ b ∈ c) ↔
      ∀ names ∈ s.ignorePackageCycles, NamesTwo names) ∧
    ∀ packages,
      (∃ issues, (scan s packages).map (·.1) = .ok issues ∧
        List.Forall₂ (fun c i => Issue.ofWorkspaceCycle s c = .ok i)
          ((Cycle.distinct (NameGraph.ofPackages packages).witnesses).filter
            (· ∉ passedOver s packages)) issues) ∧
      ∀ a, [a] ∈ passedOver s packages ↔
        [a] ∈ Cycle.distinct (NameGraph.ofPackages packages).witnesses ∧
          ∃ n, 2 ≤ n ∧ List.replicate n a ∈ s.ignorePackageCycles := by
  have hsets := names_of_rule h
  refine ⟨hsets, ⟨fun hkept names hm => ?_, fun htwo packages c hc => ?_⟩, fun packages =>
    ⟨exists_scan_passedOver s packages, fun a => ?_⟩⟩
  · refine (hsets names hm).resolve_right ?_
    rintro ⟨n, a, -, rfl⟩
    have hpassed := mem_passedOver_selfDependent hm fun _ => List.eq_of_mem_replicate
    exact absurd (hkept _ _ hpassed).1 (by simp)
  · obtain ⟨-, names, hm, hcovered⟩ := mem_passedOver_iff.mp hc
    refine ⟨two_le_length_of_isCovered (htwo names hm) hcovered, fun names' hm' hcovered' => ?_⟩
    obtain ⟨a, ha, b, hb, hne⟩ := htwo names' hm'
    exact ⟨a, ha, b, hb, hne, hcovered' a ha, hcovered' b hb⟩
  · rw [mem_passedOver_iff]
    refine and_congr_right fun _ => ⟨?_, ?_⟩
    · rintro ⟨names, hm, hcovered⟩
      have hall := Cycle.isCovered_singleton_iff.mp hcovered
      have hrepeat : names = List.replicate names.length a := List.eq_replicate_length.mpr hall
      refine ⟨names.length, (CircularSettings.isValid_of_rule h).packageSets names hm, ?_⟩
      rwa [← hrepeat]
    · rintro ⟨n, -, hm⟩
      exact ⟨_, hm, Cycle.isCovered_singleton_iff.mpr fun _ => List.eq_of_mem_replicate⟩

def settingSet (a b : String) : Value :=
  .record [("ignorePackageCycles", .list [.list [.text a, .text b]])]

theorem rule_settingSet : CircularSettings.rule (settingSet "a" "b") =
    .valid { ignorePackageCycles := [["a", "b"]] } := rfl

theorem package_sets_contract_pair :
    CircularSettings.rule (settingSet "a" "b") = .valid { ignorePackageCycles := [["a", "b"]] } ∧
      ∀ packages, ∀ c ∈ passedOver { ignorePackageCycles := [["a", "b"]] } packages,
        2 ≤ c.length := by
  obtain ⟨-, hiff, -⟩ := package_sets_contract rule_settingSet
  have htwo : ∀ names ∈ [["a", "b"]], NamesTwo names :=
    List.forall_mem_singleton.mpr ⟨"a", by simp, "b", by simp, by decide⟩
  exact ⟨rule_settingSet, fun packages c hc => (hiff.mpr htwo packages c hc).1⟩

theorem self_dependence_passed_over :
    CircularSettings.rule (settingSet "a" "a") = .valid { ignorePackageCycles := [["a", "a"]] } ∧
      ["a"] ∈ passedOver { ignorePackageCycles := [["a", "a"]] } (selfDependent "a") ∧
      (scan { ignorePackageCycles := [["a", "a"]] } (selfDependent "a")).map (·.1) = .ok [] := by
  refine ⟨rfl, mem_passedOver_selfDependent List.mem_cons_self (by simp), ?_⟩
  obtain ⟨issues, hi, -⟩ := exists_scan { ignorePackageCycles := [["a", "a"]] } (selfDependent "a")
  have hnil : issues = [] := by
    rw [issues_eq_nil_iff hi]
    intro w hw
    rw [eq_of_mem_witnesses_selfDependent ((Cycle.distinct_sublist _).mem hw)]
    decide
  rw [hi, hnil]

end Workspace

end WorkspaceCycles
