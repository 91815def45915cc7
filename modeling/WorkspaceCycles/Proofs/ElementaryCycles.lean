import Mathlib.Data.List.Perm.Subperm
import WorkspaceCycles.Proofs.CycleKey
import WorkspaceCycles.Proofs.DistinctCycles
import WorkspaceCycles.Proofs.WaysBack

namespace WorkspaceCycles

def Cycle.members (c : Cycle) : List String :=
  c.mergeSort (decide <| · ≤ ·)

namespace NameGraph

structure IsElementary (g : NameGraph) (c : Cycle) : Prop where
  closed : g.IsClosedWalk c
  nodup : c.Nodup

theorem IsElementary.of_isRotated {g : NameGraph} {c d : Cycle} (h : c ~r d)
    (hc : g.IsElementary c) : g.IsElementary d where
  closed := by
    refine ⟨fun hd => hc.closed.ne_nil (List.isRotated_nil_iff.mp (hd ▸ h)), fun e he => ?_⟩
    exact hc.closed.edge e (Cycle.mem_edges_of_isRotated h.symm he)
  nodup := h.nodup_iff.mp hc.nodup

variable {g : NameGraph} {bound : Nat}

theorem isElementary_cons_iff {start : String} {rest : List String} :
    g.IsElementary (start :: rest) ∧ (∀ x ∈ start :: rest, start ≤ x) ↔
      g.IsWay start start [start] rest := by
  constructor
  · rintro ⟨⟨hc, hn⟩, hle⟩
    obtain ⟨hnot, hn⟩ := List.nodup_cons.mp hn
    have hne : ∀ x ∈ rest, x ≠ start := by
      rintro x hx rfl
      exact hnot hx
    refine ⟨isClosedWalk_cons_iff.mp hc, fun x hx => ?_, by simpa using hne, hn⟩
    apply String.not_le.mp
    intro hx'
    exact hne x hx (String.le_antisymm hx' (hle x (List.mem_cons_of_mem _ hx)))
  · intro h
    refine ⟨⟨isClosedWalk_cons_iff.mpr h.leadsBack, ?_⟩, ?_⟩
    · exact List.nodup_cons.mpr ⟨fun hm => h.fresh start hm List.mem_cons_self, h.nodup⟩
    · refine List.forall_mem_cons.mpr ⟨String.le_refl start, fun x hx => ?_⟩
      exact String.not_lt.mp (String.lt_asymm (h.above x hx))

theorem mem_cyclesFrom_iff {start : String} {c : Cycle} :
    c ∈ g.cyclesFrom bound start ↔
      g.IsElementary c ∧ c.length ≤ bound ∧ c.head? = some start ∧ c.least? = some start := by
  have hleast : ∀ rest : List String, Cycle.least? (start :: rest) = some start ↔
      ∀ x ∈ start :: rest, start ≤ x := by
    intro rest
    rw [Cycle.least?_eq_some_iff]
    exact and_iff_right List.mem_cons_self
  cases bound with
  | zero =>
    simp only [cyclesFrom, List.not_mem_nil, false_iff, not_and]
    intro hc hl
    exact absurd (List.eq_nil_of_length_eq_zero (by omega)) hc.closed.ne_nil
  | succ k =>
    rw [cyclesFrom]
    constructor
    · intro h
      obtain ⟨rest, rfl, hway, hl⟩ := isWay_of_mem_waysBack h
      obtain ⟨hc, hle⟩ := isElementary_cons_iff.mpr hway
      rw [length_levels] at hl
      exact ⟨hc, hl, rfl, (hleast rest).mpr hle⟩
    · rintro ⟨hc, hl, hh, hm⟩
      obtain ⟨rest, rfl⟩ := List.head?_eq_some_iff.mp hh
      apply mem_waysBack (isElementary_cons_iff.mp ⟨hc, (hleast rest).mp hm⟩)
      rw [List.length_cons] at hl
      omega

theorem mem_elementaryCycles {c : Cycle} (h : c ∈ g.elementaryCycles bound) :
    g.IsElementary c ∧ c.length ≤ bound ∧ c.head? = c.least? := by
  obtain ⟨start, -, hs⟩ := List.mem_flatMap.mp (List.mem_mergeSort.mp h)
  obtain ⟨hc, hl, hh, hm⟩ := mem_cyclesFrom_iff.mp hs
  exact ⟨hc, Nat.le_trans hl (Nat.min_le_left _ _), hh.trans hm.symm⟩

theorem rotateToLeast_mem_elementaryCycles (hg : ∀ a b, b ∈ g.neighbours a → a ∈ g.nodes)
    {c : Cycle} (hc : g.IsElementary c) (hl : c.length ≤ bound) :
    c.rotateToLeast ∈ g.elementaryCycles bound := by
  have hr := Cycle.rotateToLeast_isRotated c
  have hd := hc.of_isRotated hr.symm
  have hnodes : ∀ x ∈ c.rotateToLeast, x ∈ g.nodes := by
    intro x hx
    obtain ⟨y, -, he⟩ := Cycle.exists_edge_of_mem hx
    exact hg _ _ (hd.closed.edge _ he)
  obtain ⟨start, hs⟩ : ∃ start, c.least? = some start := by
    apply Option.ne_none_iff_exists'.mp
    rw [ne_eq, Cycle.least?_eq_none_iff]
    exact hc.closed.ne_nil
  have hh : c.rotateToLeast.head? = some start := (Cycle.head?_rotateToLeast c).trans hs
  apply List.mem_mergeSort.mpr
  refine List.mem_flatMap.mpr ⟨start, hnodes start (List.mem_of_mem_head? hh), ?_⟩
  refine mem_cyclesFrom_iff.mpr ⟨hd, ?_, hh, (Cycle.least?_eq_of_isRotated hr).trans hs⟩
  apply Nat.le_min.mpr
  constructor
  · rwa [hr.perm.length_eq]
  · exact (List.subperm_of_subset hd.nodup hnodes).length_le

theorem nodup_elementaryCycles (hn : g.nodes.Nodup) (hnb : ∀ x, (g.neighbours x).Nodup) :
    (g.elementaryCycles bound).Nodup := by
  apply (List.mergeSort_perm _ _).nodup_iff.mpr
  refine List.nodup_flatMap.mpr ⟨fun start _ => ?_, hn.imp fun {a b} hab => ?_⟩
  · unfold cyclesFrom
    split
    · exact .nil
    · exact nodup_waysBack hnb _ _ _ _
  · intro c ha hb
    obtain ⟨-, -, hca, -⟩ := mem_cyclesFrom_iff.mp ha
    obtain ⟨-, -, hcb, -⟩ := mem_cyclesFrom_iff.mp hb
    exact hab (Option.some.inj (hca.symm.trans hcb))

theorem pairwise_not_isRotated_elementaryCycles (hn : g.nodes.Nodup)
    (hnb : ∀ x, (g.neighbours x).Nodup) :
    (g.elementaryCycles bound).Pairwise fun c d => ¬ c ~r d := by
  refine (nodup_elementaryCycles hn hnb).imp_of_mem fun {c d} hc hd hne hr => ?_
  obtain ⟨hce, -, hch⟩ := mem_elementaryCycles hc
  obtain ⟨-, -, hdh⟩ := mem_elementaryCycles hd
  apply hne (Cycle.eq_of_isRotated hr hce.nodup _)
  rw [hch, hdh, Cycle.least?_eq_of_isRotated hr]

theorem cycleLe_iff {c d : Cycle} : cycleLe c d = true ↔ c.length < d.length ∨
    c.length = d.length ∧ (c.members = d.members ∧ Text.namesLe c d = true ∨
      c.members ≠ d.members ∧ Text.namesLe c.members d.members = true) := by
  unfold cycleLe Cycle.members
  by_cases hl : c.length = d.length
  · by_cases hm : c.mergeSort (decide <| · ≤ ·) = d.mergeSort (decide <| · ≤ ·)
    · simp [hl, hm]
    · simp [hl, hm]
  · simp [hl]

theorem cycleLe_total (c d : Cycle) : (cycleLe c d || cycleLe d c) = true := by
  rw [Bool.or_eq_true, cycleLe_iff, cycleLe_iff]
  rcases Nat.lt_trichotomy c.length d.length with hl | hl | hl
  · exact .inl (.inl hl)
  · by_cases hm : c.members = d.members
    · exact (Bool.or_eq_true _ _ ▸ Text.namesLe_total c d).imp
        (fun h => .inr ⟨hl, .inl ⟨hm, h⟩⟩) fun h => .inr ⟨hl.symm, .inl ⟨hm.symm, h⟩⟩
    · exact (Bool.or_eq_true _ _ ▸ Text.namesLe_total c.members d.members).imp
        (fun h => .inr ⟨hl, .inr ⟨hm, h⟩⟩) fun h => .inr ⟨hl.symm, .inr ⟨Ne.symm hm, h⟩⟩
  · exact .inr (.inl hl)

theorem cycleLe_trans (c d e : Cycle) (h : cycleLe c d = true) (h' : cycleLe d e = true) :
    cycleLe c e = true := by
  rw [cycleLe_iff] at h h' ⊢
  rcases h with hl | ⟨hl, h⟩
  · rcases h' with hl' | ⟨hl', -⟩ <;> exact .inl (by omega)
  · rcases h' with hl' | ⟨hl', h'⟩
    · exact .inl (by omega)
    · refine .inr ⟨hl.trans hl', ?_⟩
      rcases h with ⟨hm, h⟩ | ⟨hm, h⟩
      · rcases h' with ⟨hm', h'⟩ | ⟨hm', h'⟩
        · exact .inl ⟨hm.trans hm', Text.namesLe_trans h h'⟩
        · rw [hm]
          exact .inr ⟨hm', h'⟩
      · rcases h' with ⟨hm', h'⟩ | ⟨hm', h'⟩
        · rw [← hm']
          exact .inr ⟨hm, h⟩
        · refine .inr ⟨fun hce => ?_, Text.namesLe_trans h h'⟩
          rw [← hce] at h'
          exact hm (Text.namesLe_antisymm h h')

theorem namesLe_members_of_cycleLe {c d : Cycle} (h : cycleLe c d = true) :
    c.length < d.length ∨
      c.length = d.length ∧ Text.namesLe c.members d.members = true := by
  rcases cycleLe_iff.mp h with hl | ⟨hl, ⟨hm, -⟩ | ⟨-, hm⟩⟩
  · exact .inl hl
  · rw [hm]
    exact .inr ⟨hl, by simpa using Text.namesLe_total d.members d.members⟩
  · exact .inr ⟨hl, hm⟩

theorem pairwise_elementaryCycles :
    (g.elementaryCycles bound).Pairwise fun c d => c.length < d.length ∨
      c.length = d.length ∧ Text.namesLe c.members d.members = true := by
  have hp : (g.elementaryCycles bound).Pairwise fun c d => cycleLe c d = true :=
    List.pairwise_mergeSort cycleLe_trans cycleLe_total _
  exact hp.imp namesLe_members_of_cycleLe

end NameGraph

end WorkspaceCycles
