import Mathlib.Data.List.Nodup
import WorkspaceCycles.NameGraph.Elementary
import WorkspaceCycles.Proofs.ClosedWalk

namespace WorkspaceCycles.NameGraph

variable {g : NameGraph} {start name : String}

def LeadsBack (g : NameGraph) (start : String) (way : List String) : Prop :=
  (way ++ [start]).IsChain fun a b => b ∈ g.neighbours a

theorem leadsBack_singleton : g.LeadsBack start [name] ↔ start ∈ g.neighbours name := by
  simp [LeadsBack]

theorem leadsBack_cons_cons {next : String} {rest : List String} :
    g.LeadsBack start (name :: next :: rest) ↔
      next ∈ g.neighbours name ∧ g.LeadsBack start (next :: rest) := by
  simp [LeadsBack]

theorem mem_withPredecessors {targets reached : List String} {next : String}
    (hs : start < name) (hn : next ∈ g.neighbours name) (ht : next ∈ targets) :
    name ∈ g.withPredecessors start targets reached := by
  unfold withPredecessors
  rw [List.mem_eraseDups, List.mem_append]
  by_cases hr : name ∈ reached
  · exact .inl hr
  · right
    unfold neighbours at hn
    cases hf : Assoc.get? g.forward name with
    | none => simp [hf] at hn
    | some nexts =>
      rw [hf] at hn
      have hm : (name, nexts) ∈ g.forward := Assoc.mem_of_get? hf
      refine List.mem_filter.mpr ⟨List.mem_map.mpr ⟨(name, nexts), ?_, rfl⟩, by simpa using hr⟩
      refine List.mem_filter.mpr ⟨hm, ?_⟩
      simp only [Bool.and_eq_true, decide_eq_true_eq, List.any_eq_true]
      exact ⟨hs, next, hn, ht⟩

theorem levels_succ (g : NameGraph) (start : String) (k : Nat) :
    ∃ level, g.levels start (k + 1) = level :: g.levels start k ∧
      ∀ name rest, g.LeadsBack start (name :: rest) → (∀ x ∈ name :: rest, start < x) →
        rest.length ≤ k → name ∈ level := by
  induction k with
  | zero =>
    refine ⟨_, rfl, ?_⟩
    intro name rest hw hs hl
    obtain rfl : rest = [] := List.eq_nil_of_length_eq_zero (by omega)
    exact mem_withPredecessors (hs name List.mem_cons_self) (leadsBack_singleton.mp hw)
      List.mem_cons_self
  | succ k ih =>
    obtain ⟨level, hk, hlevel⟩ := ih
    refine ⟨g.withPredecessors start (start :: level) level, ?_, ?_⟩
    · rw [levels, hk]
    · intro name rest hw hs hl
      have hname := hs name List.mem_cons_self
      cases rest with
      | nil =>
        exact mem_withPredecessors hname (leadsBack_singleton.mp hw) List.mem_cons_self
      | cons next rest =>
        obtain ⟨hn, hw⟩ := leadsBack_cons_cons.mp hw
        rw [List.length_cons] at hl
        have hm : next ∈ level :=
          hlevel next rest hw (fun x hx => hs x (List.mem_cons_of_mem _ hx)) (by omega)
        exact mem_withPredecessors hname hn (List.mem_cons_of_mem _ hm)

theorem length_levels (g : NameGraph) (start : String) (k : Nat) :
    (g.levels start k).length = k + 1 := by
  induction k with
  | zero => rfl
  | succ k ih =>
    obtain ⟨level, hk, -⟩ := g.levels_succ start k
    rw [hk, List.length_cons, ih]

structure IsWay (g : NameGraph) (start name : String) (path rest : List String) : Prop where
  leadsBack : g.LeadsBack start (name :: rest)
  above : ∀ x ∈ rest, start < x
  fresh : ∀ x ∈ rest, x ∉ path
  nodup : rest.Nodup

theorem IsWay.cons_iff {path rest : List String} {next : String} :
    g.IsWay start name path (next :: rest) ↔
      (next ∈ g.neighbours name ∧ start < next ∧ next ∉ path) ∧
        g.IsWay start next (next :: path) rest := by
  constructor
  · intro h
    obtain ⟨hn, hw⟩ := leadsBack_cons_cons.mp h.leadsBack
    obtain ⟨hnot, hnodup⟩ := List.nodup_cons.mp h.nodup
    refine ⟨⟨hn, h.above next List.mem_cons_self, h.fresh next List.mem_cons_self⟩, hw, ?_, ?_,
      hnodup⟩
    · exact fun x hx => h.above x (List.mem_cons_of_mem _ hx)
    · intro x hx hm
      rcases List.mem_cons.mp hm with rfl | hm
      · exact hnot hx
      · exact h.fresh x (List.mem_cons_of_mem _ hx) hm
  · rintro ⟨⟨hn, hs, hp⟩, h⟩
    refine ⟨leadsBack_cons_cons.mpr ⟨hn, h.leadsBack⟩, ?_, ?_, ?_⟩
    · exact List.forall_mem_cons.mpr ⟨hs, h.above⟩
    · refine List.forall_mem_cons.mpr ⟨hp, fun x hx hm => ?_⟩
      exact h.fresh x hx (List.mem_cons_of_mem _ hm)
    · exact List.nodup_cons.mpr ⟨fun hm => h.fresh next hm List.mem_cons_self, h.nodup⟩

theorem isWay_of_mem_waysBack {levels : List (List String)} {path way : List String}
    (h : way ∈ g.waysBack start levels name path) :
    ∃ rest, way = name :: rest ∧ g.IsWay start name path rest ∧ rest.length < levels.length := by
  induction levels generalizing name path way with
  | nil => cases h
  | cons level levels ih =>
    rw [waysBack] at h
    rcases List.mem_append.mp h with h | h
    · split at h
      · rename_i hstart
        refine ⟨[], List.mem_singleton.mp h, ?_, by simp⟩
        exact ⟨leadsBack_singleton.mpr hstart, by simp, by simp, .nil⟩
      · cases h
    · obtain ⟨next, hnext, h⟩ := List.mem_flatMap.mp h
      obtain ⟨way', hway', rfl⟩ := List.mem_map.mp h
      obtain ⟨rest, rfl, hrest, hl⟩ := ih hway'
      obtain ⟨hn, hc⟩ := List.mem_filter.mp hnext
      simp only [Bool.and_eq_true, decide_eq_true_eq] at hc
      refine ⟨next :: rest, rfl, IsWay.cons_iff.mpr ⟨⟨hn, hc.1.1, hc.1.2⟩, hrest⟩, ?_⟩
      simp only [List.length_cons]
      omega

theorem mem_waysBack {path rest : List String} {k : Nat} (h : g.IsWay start name path rest)
    (hl : rest.length ≤ k) : name :: rest ∈ g.waysBack start (g.levels start k) name path := by
  induction k generalizing name path rest with
  | zero =>
    obtain rfl : rest = [] := List.eq_nil_of_length_eq_zero (by omega)
    have hstart := leadsBack_singleton.mp h.leadsBack
    simp [levels, waysBack, hstart]
  | succ k ih =>
    obtain ⟨level, hk, hlevel⟩ := g.levels_succ start k
    rw [hk, waysBack]
    apply List.mem_append.mpr
    cases rest with
    | nil =>
      have hstart := leadsBack_singleton.mp h.leadsBack
      exact .inl (by simp [hstart])
    | cons next rest =>
      obtain ⟨⟨hn, hs, hp⟩, hrest⟩ := IsWay.cons_iff.mp h
      rw [List.length_cons] at hl
      have hm : next ∈ level := by
        apply hlevel next rest hrest.leadsBack _ (by omega)
        exact List.forall_mem_cons.mpr ⟨hs, hrest.above⟩
      refine .inr (List.mem_flatMap.mpr ⟨next, ?_, ?_⟩)
      · exact List.mem_filter.mpr ⟨hn, by simp [hs, hp, hm]⟩
      · exact List.mem_map_of_mem (ih hrest (by omega))

theorem nodup_waysBack (hnb : ∀ x, (g.neighbours x).Nodup) (start name : String)
    (levels : List (List String)) (path : List String) :
    (g.waysBack start levels name path).Nodup := by
  induction levels generalizing name path with
  | nil => exact .nil
  | cons level levels ih =>
    have hhead : ∀ next way, way ∈ g.waysBack start levels next (next :: path) →
        way.head? = some next := by
      intro next way hw
      obtain ⟨rest, rfl, -⟩ := isWay_of_mem_waysBack hw
      rfl
    rw [waysBack]
    refine List.nodup_append.mpr ⟨?_, List.nodup_flatMap.mpr ⟨?_, ?_⟩, ?_⟩
    · split <;> simp
    · intro next _
      exact (ih next (next :: path)).map fun _ _ h => (List.cons.inj h).2
    · refine ((hnb name).filter _).imp fun {a b} hab => ?_
      intro way ha hb
      obtain ⟨way', ha', rfl⟩ := List.mem_map.mp ha
      obtain ⟨way'', hb', he⟩ := List.mem_map.mp hb
      obtain rfl := (List.cons.inj he).2
      exact hab (Option.some.inj ((hhead a _ ha').symm.trans (hhead b _ hb')))
    · intro way hone other hmore he
      obtain ⟨next, -, hm⟩ := List.mem_flatMap.mp hmore
      obtain ⟨way', hw, rfl⟩ := List.mem_map.mp hm
      split at hone
      · rw [List.mem_singleton.mp hone] at he
        have hnil := (List.cons.inj he).2
        have hw' := hhead next _ hw
        rw [← hnil] at hw'
        cases hw'
      · cases hone

end WorkspaceCycles.NameGraph
