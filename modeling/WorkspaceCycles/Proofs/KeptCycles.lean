import Mathlib.Data.List.Induction
import WorkspaceCycles.Proofs.DistinctCycles

namespace WorkspaceCycles.Cycle

theorem distinct_distinct (cs : List Cycle) : distinct (distinct cs) = distinct cs :=
  distinct_eq_self (pairwise_key_distinct cs)

theorem distinct_concat (cs : List Cycle) (c : Cycle) :
    distinct (cs ++ [c]) = distinct cs ++ [c].filter fun d => d.key ∉ cs.map key :=
  distinct_append cs [c]

theorem distinct_eq_firsts (cs : List Cycle) :
    distinct cs = (cs.zipIdx.filter fun p => p.1.key ∉ (cs.take p.2).map key).map Prod.fst := by
  induction cs using List.reverseRecOn with
  | nil => rfl
  | append_singleton cs c ih =>
    have hold : cs.zipIdx.filter (fun p => p.1.key ∉ ((cs ++ [c]).take p.2).map key) =
        cs.zipIdx.filter fun p => p.1.key ∉ (cs.take p.2).map key := by
      apply List.filter_congr
      intro p hp
      have hlt := (List.mem_zipIdx hp).2.1
      rw [List.take_append_of_le_length (by omega)]
    have hbefore : (cs ++ [c]).take (0 + cs.length) = cs := by
      rw [Nat.zero_add, List.take_left]
    rw [distinct_concat, ih, List.zipIdx_append, List.filter_append, List.map_append, hold]
    congr 1
    simp only [List.zipIdx_cons, List.zipIdx_nil, List.filter_cons, List.filter_nil, hbefore]
    split <;> rfl

theorem pairwise_not_isRotated_distinct {cs : List Cycle} (h : ∀ c ∈ cs, c.Nodup) :
    (distinct cs).Pairwise fun c d => ¬ c ~r d := by
  refine (pairwise_key_distinct cs).imp_of_mem ?_
  intro c d hc _ hne hr
  exact hne (key_eq_of_isRotated hr (h c ((distinct_sublist cs).mem hc)))

/-- One rotation of each cycle with distinct members is kept, and it is the first of its key. -/
theorem rotations_collapse {cs : List Cycle} (h : ∀ c ∈ cs, c.Nodup) :
    (distinct cs).Sublist cs ∧
      (distinct cs).Pairwise (fun c d => ¬ c ~r d) ∧
      distinct cs = (cs.zipIdx.filter fun p => p.1.key ∉ (cs.take p.2).map key).map Prod.fst ∧
      distinct (distinct cs) = distinct cs :=
  ⟨distinct_sublist cs, pairwise_not_isRotated_distinct h, distinct_eq_firsts cs,
    distinct_distinct cs⟩

theorem rotations_collapse_of_three :
    (∀ c ∈ [["b", "c", "a"], ["a", "b", "c"], ["a", "c", "b"]], c.Nodup) ∧
      (distinct [["b", "c", "a"], ["a", "b", "c"], ["a", "c", "b"]]).Pairwise
        fun c d => ¬ c ~r d := by
  have h : ∀ c ∈ [["b", "c", "a"], ["a", "b", "c"], ["a", "c", "b"]], c.Nodup := by decide
  exact ⟨h, (rotations_collapse h).2.1⟩

section Separators

theorem exists_first_separator {s : List Char} (h : separator <:+: s) :
    ∃ x after, s = x.toList ++ (separator ++ after) ∧ Separable x := by
  induction s with
  | nil => exact absurd (List.infix_nil.mp h) (by simp [separator])
  | cons a s ih =>
    by_cases hp : separator <+: a :: s
    · obtain ⟨after, hafter⟩ := hp
      exact ⟨"", after, hafter.symm, by decide⟩
    · obtain ⟨x, after, hs, hx⟩ := ih ((List.infix_cons_iff.mp h).resolve_left hp)
      refine ⟨String.ofList (a :: x.toList), after, by simp [hs], ?_⟩
      intro hi
      rw [String.toList_ofList, List.cons_append] at hi
      rcases List.infix_cons_iff.mp hi with hi | hi
      · apply hp
        refine hi.trans ((List.prefix_cons_inj a).mpr ?_)
        rw [hs, separator, List.cons_append, List.prefix_append_right_inj]
        exact List.prefix_append [' '] _
      · exact hx hi

theorem exists_chain_eq {s : List Char} (h : ∀ c ∈ s.getLast?, c = ' ') :
    ∃ c : Cycle, c ≠ [] ∧ (∀ x ∈ c, Separable x) ∧ c.chain.toList = s := by
  induction hn : s.length using Nat.strongRecOn generalizing s with
  | ind n ih =>
    subst hn
    by_cases hs : separator <:+: s
    · obtain ⟨x, after, rfl, hx⟩ := exists_first_separator hs
      have hlast : ∀ c ∈ after.getLast?, c = ' ' := by
        intro c hc
        have hne : after ≠ [] := by
          rintro rfl
          cases hc
        apply h
        rwa [List.getLast?_append_of_ne_nil _ (by simp [hne]), List.getLast?_append_of_ne_nil _ hne]
      obtain ⟨c, hne, hc, hchain⟩ := ih after.length (by simp [separator]; omega) hlast rfl
      obtain ⟨y, c, rfl⟩ := List.exists_cons_of_ne_nil hne
      refine ⟨x :: y :: c, by simp, List.forall_mem_cons.mpr ⟨hx, hc⟩, ?_⟩
      rw [toList_chain_cons_cons, hchain]
    · refine ⟨[String.ofList s], by simp, ?_, by rw [chain_singleton, String.toList_ofList]⟩
      intro x hx hi
      rw [List.mem_singleton.mp hx, String.toList_ofList] at hi
      rcases List.infix_concat_iff.mp hi with ⟨before, he⟩ | hi
      · -- the separator would leave its `>` at the end of the text
        have hinit := congrArg List.dropLast he
        rw [List.dropLast_concat, List.dropLast_append_of_ne_nil (by simp [separator])] at hinit
        exact absurd (h '>' (by simp [← hinit, separator])) (by decide)
      · exact hs hi

theorem key_cons_empty (c : Cycle) : key ("" :: c) = chain ("" :: c) := by
  have hleast : least? ("" :: c) = some "" := by
    rw [least?_eq_some_iff]
    exact ⟨List.mem_cons_self, fun x _ => String.not_lt.mp (List.not_lt_nil x.toList)⟩
  rw [key, rotateToLeast, hleast]
  simp

theorem exists_lost_of_not_separable {x : String} (h : ¬ Separable x) :
    ∃ c d : Cycle, c ≠ [] ∧ (∀ y ∈ c, Separable y) ∧ d ≠ [] ∧ x ∈ d ∧
      (∀ y ∈ d, y = x ∨ Separable y) ∧ distinct [c, d] = [c] ∧ ¬ c ~r d := by
  have hempty : Separable "" := by decide
  obtain ⟨c, hne, hc, hchain⟩ := exists_chain_eq (s := x.toList ++ separator) (by simp [separator])
  have hc' : ∀ y ∈ "" :: c, Separable y := List.forall_mem_cons.mpr ⟨hempty, hc⟩
  have hkey : key ("" :: c) = key ["", x, ""] := by
    obtain ⟨y, c, rfl⟩ := List.exists_cons_of_ne_nil hne
    rw [key_cons_empty, key_cons_empty, ← String.toList_inj, toList_chain_cons_cons, hchain,
      toList_chain_cons_cons, toList_chain_cons_cons, chain_singleton]
    simp
  refine ⟨"" :: c, ["", x, ""], by simp, hc', by simp, by simp, ?_, ?_, ?_⟩
  · intro y hy
    simp only [List.mem_cons, List.not_mem_nil, or_false] at hy
    rcases hy with rfl | rfl | rfl
    · exact .inr hempty
    · exact .inl rfl
    · exact .inr hempty
  · rw [distinct_cons, distinct_cons]
    simp [hkey, distinct, distinctFrom]
  · intro hr
    exact h (hc' x (hr.mem_iff.mpr (by simp)))

end Separators

theorem forall_exists_isRotated_of_separable {cs : List Cycle}
    (h : ∀ c ∈ cs, c ≠ [] ∧ ∀ x ∈ c, Separable x) :
    (∀ c ∈ cs, ∃ d ∈ distinct cs, d ~r c) ∧ ∀ c ∈ cs, ∀ d ∈ cs, c.key = d.key → c ~r d := by
  have hkey : ∀ c ∈ cs, ∀ d ∈ cs, c.key = d.key → c ~r d := fun c hc d hd =>
    isRotated_of_key_eq (h c hc).1 (h d hd).1 (h c hc).2 (h d hd).2
  refine ⟨fun c hc => ?_, hkey⟩
  obtain ⟨d, hd, hk⟩ := exists_mem_distinct hc
  exact ⟨d, hd, hkey d ((distinct_sublist cs).mem hd) c hc hk⟩

/-- No cycle of separable names is lost, and a name may join them without loss only if it is
separable too. -/
theorem no_cycle_lost_iff_separable (x : String) :
    (∀ cs : List Cycle, (∀ c ∈ cs, c ≠ [] ∧ ∀ y ∈ c, y = x ∨ Separable y) →
      (∀ c ∈ cs, ∃ d ∈ distinct cs, d ~r c) ∧ ∀ c ∈ cs, ∀ d ∈ cs, c.key = d.key → c ~r d) ↔
      Separable x := by
  constructor
  · intro h
    by_contra hx
    obtain ⟨c, d, hc, hcs, hd, -, hds, hdistinct, hr⟩ := exists_lost_of_not_separable hx
    have hcd : ∀ e ∈ [c, d], e ≠ [] ∧ ∀ y ∈ e, y = x ∨ Separable y := by
      rw [List.forall_mem_cons, List.forall_mem_singleton]
      exact ⟨⟨hc, fun y hy => .inr (hcs y hy)⟩, hd, hds⟩
    obtain ⟨e, he, hed⟩ := (h [c, d] hcd).1 d (by simp)
    rw [hdistinct, List.mem_singleton] at he
    exact hr (he ▸ hed)
  · intro hx cs h
    refine forall_exists_isRotated_of_separable fun c hc => ⟨(h c hc).1, fun y hy => ?_⟩
    rcases (h c hc).2 y hy with rfl | hy
    · exact hx
    · exact hy

theorem cycle_lost_of_arrow_in_name :
    distinct [["a -> b"], ["a", "b"]] = [["a -> b"]] ∧ ¬ ["a -> b"] ~r ["a", "b"] := by
  decide +kernel

end WorkspaceCycles.Cycle
