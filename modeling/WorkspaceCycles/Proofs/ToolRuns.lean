import WorkspaceCycles.Check.PackageScan
import WorkspaceCycles.Proofs.Faults

namespace WorkspaceCycles

namespace FileTree

structure Resolves (t : FileTree) (p : Path) : Prop where
  without_null : ∀ part ∈ p.parts, '\x00' ∉ part.toList
  without_loop : t.node (t.canonical p) ≠ .error .tooManyLinks

theorem exists_canonical?_iff {t : FileTree} {p : Path} :
    (∃ q, t.canonical? p = .ok q) ↔ t.Resolves p := by
  have hany : p.parts.any (·.contains '\x00') = true ↔ ∃ part ∈ p.parts, '\x00' ∈ part.toList := by
    simp
  unfold canonical?
  by_cases hz : p.parts.any (·.contains '\x00') = true
  · obtain ⟨part, hm, hc⟩ := hany.mp hz
    rw [if_pos hz]
    constructor
    · rintro ⟨q, hq⟩
      cases hq
    · exact fun hr => absurd hc (hr.without_null part hm)
  · rw [if_neg hz]
    have hnull : ∀ part ∈ p.parts, '\x00' ∉ part.toList :=
      fun part hm hc => hz (hany.mpr ⟨part, hm, hc⟩)
    split
    · rename_i hl
      constructor
      · rintro ⟨q, hq⟩
        cases hq
      · exact fun hr => absurd hl hr.without_loop
    · rename_i hl
      exact ⟨fun _ => ⟨hnull, hl⟩, fun _ => ⟨_, rfl⟩⟩

theorem canonical?_eq_ok {t : FileTree} {p q : Path} (h : t.canonical? p = .ok q) :
    q = t.canonical p := by
  unfold canonical? at h
  split at h
  · cases h
  · split at h
    · cases h
    · exact (Except.ok.inj h).symm

theorem Resolves.canonical?_eq {t : FileTree} {p : Path} (h : t.Resolves p) :
    t.canonical? p = .ok (t.canonical p) := by
  obtain ⟨q, hq⟩ := exists_canonical?_iff.mpr h
  rw [hq, canonical?_eq_ok hq]

end FileTree

structure Host.CanLookFor (h : Host) (name : String) (start : Path) : Prop where
  resolves : h.files.Resolves start
  search : CanSearch h.isExecutable? (Host.installed name (h.files.canonical start))

theorem Host.exists_findExecutable_iff {h : Host} {name : String} {start : Path} :
    (∃ e, h.findExecutable name start = .ok e) ↔ h.CanLookFor name start := by
  constructor
  · rintro ⟨e, he⟩
    obtain ⟨q, hq, he⟩ := exists_of_bind_eq_ok he
    obtain ⟨found, hf, -⟩ := exists_of_bind_eq_ok he
    have hr := FileTree.exists_canonical?_iff.mp ⟨q, hq⟩
    rw [hr.canonical?_eq, Except.ok.injEq] at hq
    exact ⟨hr, exists_findM?_iff.mp ⟨found, hq ▸ hf⟩⟩
  · rintro ⟨hr, hs⟩
    obtain ⟨found, hf⟩ := exists_findM?_iff.mpr hs
    simp only [findExecutable, hr.canonical?_eq, hf, bind, Except.bind]
    cases found <;> exact ⟨_, rfl⟩

namespace Cycle

theorem ne_nil_of_mem_allOfJson {v : Json} {c : Cycle} (h : c ∈ allOfJson v) : c ≠ [] := by
  cases v with
  | list entries =>
    obtain ⟨entry, -, he⟩ := List.mem_filterMap.mp h
    exact (ofJson?_eq_some_iff.mp he).ne_nil
  | _ => cases h

end Cycle

namespace NameGraph

theorem ne_nil_of_mem_waysBack {g : NameGraph} {start : String} {levels : List (List String)}
    {name : String} {path way : List String} (h : way ∈ g.waysBack start levels name path) :
    way ≠ [] := by
  cases levels with
  | nil => cases h
  | cons level levels =>
    rw [waysBack] at h
    rcases List.mem_append.mp h with h | h
    · split at h
      · rw [List.mem_singleton.mp h]
        simp
      · cases h
    · obtain ⟨n, -, hn⟩ := List.mem_flatMap.mp h
      obtain ⟨rest, -, rfl⟩ := List.mem_map.mp hn
      simp

theorem ne_nil_of_mem_elementaryCycles {g : NameGraph} {bound : Nat} {c : Cycle}
    (h : c ∈ g.elementaryCycles bound) : c ≠ [] := by
  unfold elementaryCycles at h
  obtain ⟨start, -, hs⟩ := List.mem_flatMap.mp (List.mem_mergeSort.mp h)
  unfold cyclesFrom at hs
  split at hs
  · cases hs
  · exact ne_nil_of_mem_waysBack hs

end NameGraph

theorem Source.ne_nil_of_mem_importCycles {t : FileTree} {package : Path} {o : NativeOptions}
    {expired : Bool} {found : List Cycle} (h : importCycles t package o expired = .ok found)
    {c : Cycle} (hc : c ∈ found) : c ≠ [] := by
  have hg : ∃ g : NameGraph, g.elementaryCycles o.maxCycleLength.toNat = found := by
    unfold importCycles at h
    simp only at h
    split at h
    · obtain ⟨root, -, h⟩ := exists_of_bind_eq_ok h
      split at h
      · obtain ⟨_, h, -⟩ := exists_of_bind_eq_ok h
        cases h
      · obtain ⟨g, -, h⟩ := exists_of_bind_eq_ok h
        exact ⟨g, Except.ok.inj h⟩
    · obtain ⟨g, -, h⟩ := exists_of_bind_eq_ok h
      exact ⟨g, Except.ok.inj h⟩
  obtain ⟨g, rfl⟩ := hg
  exact NameGraph.ne_nil_of_mem_elementaryCycles hc

namespace Tool

variable {h : Host} {s : CircularSettings} {folder : Path} {c : Cycle}

theorem exists_isInstalled_iff {tool : Tool} :
    (∃ b, tool.isInstalled h folder = .ok b) ↔ tool = .native ∨ h.CanLookFor tool.name folder := by
  cases tool with
  | native => exact ⟨fun _ => .inl rfl, fun _ => ⟨true, rfl⟩⟩
  | dpdm | madge =>
    simp only [reduceCtorEq, false_or]
    rw [← Host.exists_findExecutable_iff]
    constructor
    · rintro ⟨b, hb⟩
      obtain ⟨e, he, -⟩ := exists_of_bind_eq_ok hb
      exact ⟨e, he⟩
    · rintro ⟨e, he⟩
      refine ⟨e.isSome, ?_⟩
      change h.findExecutable _ _ >>= _ = _
      rw [he]
      rfl

theorem ne_nil_of_mem_withoutOutput {tool : Tool} {o : Output}
    (hc : c ∈ (tool.withoutOutput o).found) : c ≠ [] := by
  unfold withoutOutput at hc
  split at hc <;> cases hc

theorem ne_nil_of_mem_readDpdm {levels : Nat} {o : Output}
    (hc : c ∈ (readDpdm levels folder o).1.found) : c ≠ [] := by
  unfold readDpdm at hc
  split at hc
  · exact ne_nil_of_mem_withoutOutput hc
  · split at hc
    · cases hc
    · split at hc
      · exact Cycle.ne_nil_of_mem_allOfJson hc
      · cases hc
      · cases hc
      · cases hc

theorem ne_nil_of_mem_readMadge {levels : Nat} {o : Output}
    (hc : c ∈ (readMadge levels folder o).1.found) : c ≠ [] := by
  unfold readMadge at hc
  simp only at hc
  split at hc
  · exact ne_nil_of_mem_withoutOutput hc
  · split at hc
    · obtain ⟨d, hd, rfl⟩ := List.mem_map.mp hc
      simpa using Cycle.ne_nil_of_mem_allOfJson hd
    · cases hc
    · cases hc
    · cases hc

theorem ne_nil_of_mem_start {tool : Tool} {arguments : Path → List String}
    {read : Output → Outcome × Log} (hread : ∀ o, ∀ c ∈ (read o).1.found, c ≠ [])
    (hc : c ∈ (start h tool folder arguments read).outcome.found) : c ≠ [] := by
  unfold start at hc
  split at hc
  · cases hc
  · cases hc
  · simp only at hc
    split at hc
    · cases hc
    · cases hc
    · cases hc
    · exact hread _ c hc

theorem ne_nil_of_mem_runDpdm {o : DpdmOptions} (hc : c ∈ (runDpdm h o folder).outcome.found) :
    c ≠ [] := by
  unfold runDpdm at hc
  simp only at hc
  split at hc
  · cases hc
  · split at hc
    · cases hc
    · exact ne_nil_of_mem_start (fun _ _ => ne_nil_of_mem_readDpdm) hc

theorem ne_nil_of_mem_runMadge {o : MadgeOptions}
    (hc : c ∈ (runMadge h o folder).outcome.found) : c ≠ [] := by
  unfold runMadge at hc
  split at hc
  · cases hc
  · split at hc
    · exact ne_nil_of_mem_start (fun _ _ => ne_nil_of_mem_readMadge) hc
    · cases hc

theorem ne_nil_of_mem_runNative {o : NativeOptions}
    (hc : c ∈ (runNative h o folder).outcome.found) : c ≠ [] := by
  unfold runNative at hc
  simp only at hc
  split at hc
  · cases hc
  · cases hc
  · split at hc
    · rename_i found hf
      exact Source.ne_nil_of_mem_importCycles hf hc
    · cases hc
    · cases hc

theorem ne_nil_of_mem_found (tool : Tool) (hc : c ∈ (tool.run h s folder).outcome.found) :
    c ≠ [] := by
  cases tool with
  | dpdm => exact ne_nil_of_mem_runDpdm hc
  | madge => exact ne_nil_of_mem_runMadge hc
  | native => exact ne_nil_of_mem_runNative hc

end Tool

namespace Package

def contribution (h : Host) (s : CircularSettings) (p : Package) (name : String) : List Cycle :=
  match Tool.ofName? name with
  | none => []
  | some tool =>
    match tool.isInstalled h p.folder with
    | .ok true => (tool.run h s p.folder).outcome.found
    | _ => []

def Fails (h : Host) (s : CircularSettings) (p : Package) (name : String) : Prop :=
  ∀ tool, Tool.ofName? name = some tool → tool.isInstalled h p.folder = .ok true →
    ∀ found, (tool.run h s p.folder).outcome ≠ .cycles found

def CanTry (h : Host) (p : Package) (names : List String) : Prop :=
  ∀ name ∈ names, ∀ tool, Tool.ofName? name = some tool →
    tool = .native ∨ h.CanLookFor tool.name p.folder

variable {h : Host} {s : CircularSettings} {p : Package} {name : String} {names : List String}

theorem contribution_eq_nil (hf : p.Fails h s name) : p.contribution h s name = [] := by
  unfold contribution
  split
  · rfl
  · rename_i tool ht
    split
    · rename_i hi
      unfold Outcome.found
      split
      · rename_i found ho
        exact absurd ho (hf tool ht hi found)
      · rfl
    · rfl

theorem ne_nil_of_mem_contribution {c : Cycle} (hc : c ∈ p.contribution h s name) : c ≠ [] := by
  unfold contribution at hc
  split at hc
  · cases hc
  · split at hc
    · exact Tool.ne_nil_of_mem_found _ hc
    · cases hc

theorem runTools_cons {clock : Clock} {runs : ToolRuns}
    (hr : runTools h s p clock (name :: names) = .ok runs) :
    (∀ tool, Tool.ofName? name = some tool → ∃ b, tool.isInstalled h p.folder = .ok b) ∧
      ∃ clock' later, runTools h s p clock' names = .ok later ∧
        runs.cycles = p.contribution h s name ++ later.cycles := by
  rw [runTools] at hr
  cases hn : Tool.ofName? name with
  | none =>
    have hnil : p.contribution h s name = [] := by simp only [contribution, hn]
    rw [hn] at hr
    obtain ⟨later, hl, hr⟩ := exists_of_bind_eq_ok hr
    cases hr
    exact ⟨by simp, clock, later, hl, by rw [hnil, List.nil_append]⟩
  | some tool =>
    rw [hn] at hr
    obtain ⟨installed, hi, hr⟩ := exists_of_bind_eq_ok hr
    refine ⟨fun _ ht => ⟨installed, Option.some.inj ht ▸ hi⟩, ?_⟩
    cases installed with
    | false =>
      have hnil : p.contribution h s name = [] := by simp only [contribution, hn, hi]
      obtain ⟨later, hl, hr⟩ := exists_of_bind_eq_ok hr
      cases hr
      exact ⟨clock, later, hl, by rw [hnil, List.nil_append]⟩
    | true =>
      have hfound : p.contribution h s name = (tool.run h s p.folder).outcome.found := by
        simp only [contribution, hn, hi]
      obtain ⟨later, hl, hr⟩ := exists_of_bind_eq_ok hr
      cases hr
      exact ⟨_, later, hl, by rw [hfound]⟩

theorem cycles_of_runTools {clock : Clock} {runs : ToolRuns}
    (hr : runTools h s p clock names = .ok runs) :
    runs.cycles = names.flatMap (p.contribution h s) := by
  induction names generalizing clock runs with
  | nil =>
    cases hr
    rfl
  | cons name names ih =>
    obtain ⟨-, clock', later, hl, hc⟩ := runTools_cons hr
    rw [hc, ih hl, List.flatMap_cons]

theorem canTry_of_runTools {clock : Clock} {runs : ToolRuns}
    (hr : runTools h s p clock names = .ok runs) : p.CanTry h names := by
  induction names generalizing clock runs with
  | nil =>
    intro n hn
    cases hn
  | cons name names ih =>
    obtain ⟨hinstalled, clock', later, hl, -⟩ := runTools_cons hr
    intro n hn tool ht
    rcases List.mem_cons.mp hn with rfl | hn
    · exact Tool.exists_isInstalled_iff.mp (hinstalled tool ht)
    · exact ih hl n hn tool ht

theorem exists_runTools (ht : p.CanTry h names) (clock : Clock) :
    ∃ runs, runTools h s p clock names = .ok runs := by
  induction names generalizing clock with
  | nil => exact ⟨_, rfl⟩
  | cons name names ih =>
    have hrest := ih fun n hn => ht n (List.mem_cons_of_mem _ hn)
    rw [runTools]
    cases hn : Tool.ofName? name with
    | none => exact exists_bind_eq_ok (hrest _) fun _ => ⟨_, rfl⟩
    | some tool =>
      apply exists_bind_eq_ok (Tool.exists_isInstalled_iff.mpr (ht name List.mem_cons_self tool hn))
      intro installed
      cases installed with
      | false => exact exists_bind_eq_ok (hrest _) fun _ => ⟨_, rfl⟩
      | true => exact exists_bind_eq_ok (hrest _) fun _ => ⟨_, rfl⟩

theorem exists_runTools_iff (clock : Clock) :
    (∃ runs, runTools h s p clock names = .ok runs) ↔ p.CanTry h names :=
  ⟨fun ⟨_, hr⟩ => canTry_of_runTools hr, fun ht => exists_runTools ht clock⟩

end Package

end WorkspaceCycles
