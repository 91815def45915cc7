import WorkspaceCycles.Proofs.DistinctCycles
import WorkspaceCycles.Proofs.ToolRuns

namespace WorkspaceCycles

theorem Cycle.isIgnored_of_isRotated {c d : Cycle} (h : c ~r d) (package : Option String)
    (rules : List IgnoreRule) : c.isIgnored package rules = d.isIgnored package rules := by
  have hany : ∀ q : String → Bool, c.any q = d.any q := by
    intro q
    rw [Bool.eq_iff_iff, List.any_eq_true, List.any_eq_true]
    simp only [h.mem_iff]
  simp only [isIgnored, IgnoreRule.covers, hany]

theorem Issue.eq_of_ofImportCycle_eq {s : CircularSettings} {package : String} {c d : Cycle}
    (hc : c ≠ []) (hd : d ≠ []) (hpc : c.Plain) (hpd : d.Plain)
    (h : ofImportCycle s package c = ofImportCycle s package d) : c = d := by
  have hm := congrArg Issue.message h
  have hchain : c.chain = d.chain := by
    apply String.toList_inj.mp
    simpa [ofImportCycle] using congrArg String.toList hm
  exact Cycle.eq_of_chain_eq hc hd hpc.separable hpd.separable hchain

namespace Package

def found (h : Host) (s : CircularSettings) (p : Package) (tools : List String) : List Cycle :=
  tools.flatMap (p.contribution h s)

def kept (h : Host) (s : CircularSettings) (p : Package) (tools : List String) : List Cycle :=
  (p.found h s tools).filter fun c => !c.isIgnored (some p.name) s.ignoreCycles

variable {h : Host} {s : CircularSettings} {p : Package} {tools : List String} {r : Scan}

theorem exists_scan_iff : (∃ r, scan h s tools p = .ok r) ↔ p.CanTry h tools := by
  rw [← exists_runTools_iff (s := s) {}]
  constructor
  · rintro ⟨r, hr⟩
    obtain ⟨runs, hruns, -⟩ := exists_of_bind_eq_ok hr
    exact ⟨runs, hruns⟩
  · intro hruns
    exact exists_bind_eq_ok hruns fun _ => ⟨_, rfl⟩

theorem issues_of_scan (hr : scan h s tools p = .ok r) :
    r.issues = ((Cycle.distinct (p.found h s tools)).filter
      fun c => !c.isIgnored (some p.name) s.ignoreCycles).map (Issue.ofImportCycle s p.name) := by
  obtain ⟨runs, hruns, hr⟩ := exists_of_bind_eq_ok hr
  rw [found, ← cycles_of_runTools hruns]
  rw [List.partition_eq_filter_filter] at hr
  cases hr
  rfl

theorem ne_nil_of_mem_found {c : Cycle} (hc : c ∈ p.found h s tools) : c ≠ [] := by
  obtain ⟨name, -, hn⟩ := List.mem_flatMap.mp hc
  exact ne_nil_of_mem_contribution hn

theorem issues_eq_firstRotations (hr : scan h s tools p = .ok r)
    (hp : ∀ c ∈ p.found h s tools, c.Plain) :
    r.issues = (Cycle.firstRotations (p.kept h s tools)).map (Issue.ofImportCycle s p.name) := by
  have hkey : ∀ c ∈ p.found h s tools, ∀ d ∈ p.found h s tools, d.key = c.key ↔ c ~r d := by
    intro c hc d hd
    rw [Cycle.key_eq_iff (ne_nil_of_mem_found hd) (ne_nil_of_mem_found hc) (hp d hd) (hp c hc)]
    exact List.isRotated_comm
  rw [issues_of_scan hr, Cycle.distinct_eq_firstRotations hkey, kept, Cycle.filter_firstRotations]
  intro c d hcd
  rw [Cycle.isIgnored_of_isRotated hcd]

theorem eq_of_ofImportCycle_eq {c d : Cycle} (hp : ∀ c ∈ p.found h s tools, c.Plain)
    (hd : d ∈ p.kept h s tools) (hcd : d ~r c) {e : Cycle} (he : e ∈ p.kept h s tools)
    (hec : Issue.ofImportCycle s p.name e = Issue.ofImportCycle s p.name c) : e = c := by
  have hdf := (List.mem_filter.mp hd).1
  have hef := (List.mem_filter.mp he).1
  have hc : c ≠ [] := by
    rintro rfl
    exact ne_nil_of_mem_found hdf (List.isRotated_nil_iff.mp hcd)
  exact Issue.eq_of_ofImportCycle_eq (ne_nil_of_mem_found hef) hc (hp e hef)
    ((hp d hdf).of_isRotated hcd) hec

theorem nodup_issues (hr : scan h s tools p = .ok r) (hp : ∀ c ∈ p.found h s tools, c.Plain) :
    r.issues.Nodup := by
  rw [issues_eq_firstRotations hr hp]
  apply List.Nodup.map_on
  · intro c hc d hd
    have hck := (Cycle.firstRotations_sublist _).mem hc
    have hdk := (Cycle.firstRotations_sublist _).mem hd
    exact eq_of_ofImportCycle_eq hp hdk (.refl d) hck
  · refine (Cycle.pairwise_firstRotations _).imp ?_
    rintro c _ hne rfl
    exact hne (.refl c)

theorem existsUnique_issue (hr : scan h s tools p = .ok r)
    (hp : ∀ c ∈ p.found h s tools, c.Plain) {c : Cycle} (hc : c ∈ p.kept h s tools) :
    ∃! i, i ∈ r.issues ∧ ∃ d, c ~r d ∧ i = Issue.ofImportCycle s p.name d := by
  rw [issues_eq_firstRotations hr hp]
  obtain ⟨d, hd, hdc⟩ := Cycle.exists_mem_firstRotations hc
  refine ⟨_, ⟨List.mem_map_of_mem hd, d, hdc.symm, rfl⟩, ?_⟩
  rintro _ ⟨hi, e, hce, rfl⟩
  obtain ⟨e', he', hee'⟩ := List.mem_map.mp hi
  have hek := (Cycle.firstRotations_sublist _).mem he'
  obtain rfl := eq_of_ofImportCycle_eq hp hc hce hek hee'
  rw [Cycle.eq_of_pairwise (Cycle.pairwise_firstRotations _) he' hd (hdc.trans hce).symm]

theorem exists_scan_eq {tools' : List String} (hr : scan h s tools p = .ok r)
    (hsub : ∀ name ∈ tools', name ∈ tools)
    (hfound : Cycle.distinct (p.found h s tools') = Cycle.distinct (p.found h s tools)) :
    ∃ r', scan h s tools' p = .ok r' ∧ r'.issues = r.issues := by
  have ht := exists_scan_iff.mp ⟨r, hr⟩
  obtain ⟨r', hr'⟩ := exists_scan_iff (s := s).mpr fun name hn => ht name (hsub name hn)
  exact ⟨r', hr', by rw [issues_of_scan hr', issues_of_scan hr, hfound]⟩

theorem scan_without_failing {before after : List String} {name : String}
    (hr : scan h s (before ++ name :: after) p = .ok r) (hf : p.Fails h s name) :
    ∃ r', scan h s (before ++ after) p = .ok r' ∧ r'.issues = r.issues := by
  apply exists_scan_eq hr
  · intro n hn
    rcases List.mem_append.mp hn with hn | hn
    · exact List.mem_append_left _ hn
    · exact List.mem_append_right _ (List.mem_cons_of_mem _ hn)
  · simp only [found, List.flatMap_append, List.flatMap_cons, contribution_eq_nil hf,
      List.nil_append]

theorem scan_with_repeated {before after : List String} {name : String}
    (hr : scan h s (before ++ after) p = .ok r) (hn : name ∈ before) :
    ∃ r', scan h s (before ++ name :: after) p = .ok r' ∧ r'.issues = r.issues := by
  apply exists_scan_eq hr
  · intro n hm
    rcases List.mem_append.mp hm with hm | hm
    · exact List.mem_append_left _ hm
    · rcases List.mem_cons.mp hm with rfl | hm
      · exact List.mem_append_left _ hn
      · exact List.mem_append_right _ hm
  · simp only [found, List.flatMap_append, List.flatMap_cons]
    exact Cycle.distinct_append_append fun d hd => List.mem_flatMap.mpr ⟨name, hn, hd⟩

theorem scan_of_perm {tools' : List String} (hr : scan h s tools p = .ok r)
    (hp : ∀ c ∈ p.found h s tools, c.Plain) (ht : tools'.Perm tools) :
    ∃ r', scan h s tools' p = .ok r' ∧ ∃ cs ds, r.issues = cs.map (Issue.ofImportCycle s p.name) ∧
      r'.issues = ds.map (Issue.ofImportCycle s p.name) ∧
      ∃ es, es.Perm ds ∧ List.Forall₂ (fun c e => c ~r e) cs es := by
  have hcan := exists_scan_iff.mp ⟨r, hr⟩
  obtain ⟨r', hr'⟩ := exists_scan_iff (s := s).mpr fun name hn => hcan name (ht.mem_iff.mp hn)
  have hfound : (p.found h s tools').Perm (p.found h s tools) := ht.flatMap_right _
  have hp' : ∀ c ∈ p.found h s tools', c.Plain := fun c hc => hp c (hfound.mem_iff.mp hc)
  have hkept : (p.kept h s tools').Perm (p.kept h s tools) := hfound.filter _
  refine ⟨r', hr', _, _, issues_eq_firstRotations hr hp, issues_eq_firstRotations hr' hp', ?_⟩
  apply Cycle.exists_perm_forall₂ (Cycle.pairwise_firstRotations _)
    (Cycle.pairwise_firstRotations _)
  · intro c hc
    have hck := hkept.mem_iff.mpr ((Cycle.firstRotations_sublist _).mem hc)
    obtain ⟨d, hd, hdc⟩ := Cycle.exists_mem_firstRotations hck
    exact ⟨d, hd, hdc.symm⟩
  · intro d hd
    have hdk := hkept.mem_iff.mp ((Cycle.firstRotations_sublist _).mem hd)
    exact Cycle.exists_mem_firstRotations hdk

/-- The scan is made exactly if the executable of each tool that is a program of its own can be
looked for, and then the issues are those of the first rotations of the cycles that are not passed
over. -/
theorem scan_contract (h : Host) (s : CircularSettings) (tools : List String) (p : Package) :
    ((∃ r, scan h s tools p = .ok r) ↔
      ∀ name ∈ tools, ∀ tool, Tool.ofName? name = some tool →
        tool = .native ∨ h.CanLookFor tool.name p.folder) ∧
    ∀ r, scan h s tools p = .ok r →
      ((∀ c ∈ p.found h s tools, c.Plain) →
        r.issues = (Cycle.firstRotations (p.kept h s tools)).map (Issue.ofImportCycle s p.name) ∧
        r.issues.Nodup ∧
        (∀ c ∈ p.kept h s tools,
          ∃! i, i ∈ r.issues ∧ ∃ d, c ~r d ∧ i = Issue.ofImportCycle s p.name d) ∧
        ∀ tools' : List String, tools'.Perm tools → ∃ r', scan h s tools' p = .ok r' ∧
          ∃ cs ds, r.issues = cs.map (Issue.ofImportCycle s p.name) ∧
            r'.issues = ds.map (Issue.ofImportCycle s p.name) ∧
            ∃ es, es.Perm ds ∧ List.Forall₂ (fun c e => c ~r e) cs es) ∧
      (∀ before name after, tools = before ++ name :: after → p.Fails h s name →
        ∃ r', scan h s (before ++ after) p = .ok r' ∧ r'.issues = r.issues) ∧
      (∀ before name after, tools = before ++ after → name ∈ before →
        ∃ r', scan h s (before ++ name :: after) p = .ok r' ∧ r'.issues = r.issues) := by
  refine ⟨exists_scan_iff, fun r hr => ⟨?_, ?_, ?_⟩⟩
  · intro hp
    exact ⟨issues_eq_firstRotations hr hp, nodup_issues hr hp,
      fun c hc => existsUnique_issue hr hp hc, fun tools' ht => scan_of_perm hr hp ht⟩
  · rintro before name after rfl hf
    exact scan_without_failing hr hf
  · rintro before name after rfl hn
    exact scan_with_repeated hr hn

def bareHost : Host where
  files := .empty
  searchPath := []
  execute := fun _ _ => .notStarted ""
  reportFile := .top

theorem not_scan_of_null :
    (¬ ∃ r, scan bareHost {} ["dpdm"] { name := "a", folder := .ofString "/a\x00b" } = .ok r) ∧
      ∃ r, scan bareHost {} ["native"] { name := "a", folder := .ofString "/a\x00b" } = .ok r := by
  rw [exists_scan_iff, exists_scan_iff]
  constructor
  · intro ht
    rcases ht "dpdm" (by simp) .dpdm (by decide) with hn | hl
    · cases hn
    · exact hl.resolves.without_null "a\x00b" (by decide) (by decide)
  · intro name hn tool ht
    rw [List.mem_singleton.mp hn] at ht
    exact .inl (Option.some.inj (ht.symm.trans (by decide)))

end Package

end WorkspaceCycles
