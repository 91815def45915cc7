import Mathlib.Data.List.Forall2
import Mathlib.Data.List.Pairwise
import WorkspaceCycles.Proofs.CycleKey

namespace WorkspaceCycles.Cycle

theorem distinct_cons_eq (c : Cycle) (cs : List Cycle) :
    distinct (c :: cs) = c :: distinctFrom [c.key] cs := by
  rw [distinct, distinctFrom, if_neg List.not_mem_nil]

theorem distinctFrom_eq_filter (seen : List String) (cs : List Cycle) :
    distinctFrom seen cs = (distinct cs).filter (fun c => c.key ∉ seen) := by
  induction cs generalizing seen with
  | nil => rfl
  | cons c cs ih =>
    rw [distinct_cons_eq, distinctFrom, ih [c.key], List.filter_cons]
    by_cases hc : c.key ∈ seen
    · rw [if_pos hc, if_neg (by simpa using hc), ih seen, List.filter_filter]
      apply List.filter_congr
      intro d _
      by_cases hd : d.key ∈ seen
      · simp [hd]
      · have hne : d.key ≠ c.key := fun he => hd (he ▸ hc)
        simp [hd, hne]
    · rw [if_neg hc, if_pos (by simpa using hc), ih (c.key :: seen), List.filter_filter]
      congr 1
      apply List.filter_congr
      intro d _
      simp [Bool.and_comm]

theorem distinct_cons (c : Cycle) (cs : List Cycle) :
    distinct (c :: cs) = c :: (distinct cs).filter (fun d => d.key ≠ c.key) := by
  rw [distinct_cons_eq, distinctFrom_eq_filter]
  simp

theorem distinct_append (cs ds : List Cycle) :
    distinct (cs ++ ds) =
      distinct cs ++ (distinct ds).filter (fun d => d.key ∉ cs.map key) := by
  induction cs with
  | nil => simp [distinct, distinctFrom]
  | cons c cs ih =>
    rw [List.cons_append, distinct_cons, distinct_cons, ih, List.filter_append,
      List.filter_filter, List.cons_append]
    congr 2
    apply List.filter_congr
    intro d _
    simp

theorem distinct_append_append {cs ds es : List Cycle} (h : ∀ d ∈ ds, d ∈ cs) :
    distinct (cs ++ (ds ++ es)) = distinct (cs ++ es) := by
  have hkey : ∀ d ∈ ds, d.key ∈ cs.map key := fun d hd => List.mem_map_of_mem (h d hd)
  rw [distinct_append, distinct_append cs es, distinct_append ds es, List.filter_append,
    List.filter_filter]
  have hnil : (distinct ds).filter (fun d => d.key ∉ cs.map key) = [] := by
    rw [List.filter_eq_nil_iff]
    intro d hd
    simpa using hkey d ((distinct_sublist ds).mem hd)
  rw [hnil, List.nil_append]
  congr 1
  apply List.filter_congr
  intro e _
  by_cases he : e.key ∈ cs.map key
  · simp only [he, not_true_eq_false, decide_false, Bool.false_and]
  · have hne : e.key ∉ ds.map key := by
      intro hm
      obtain ⟨d, hd, hk⟩ := List.mem_map.mp hm
      exact he (hk ▸ hkey d hd)
    simp only [he, hne, not_false_eq_true, decide_true, Bool.and_self]

theorem exists_mem_distinct {cs : List Cycle} {c : Cycle} (h : c ∈ cs) :
    ∃ d ∈ distinct cs, d.key = c.key := by
  induction cs with
  | nil => cases h
  | cons b cs ih =>
    rw [distinct_cons]
    by_cases hk : c.key = b.key
    · exact ⟨b, List.mem_cons_self, hk.symm⟩
    · obtain ⟨d, hd, hdc⟩ := ih ((List.mem_cons.mp h).resolve_left fun he => hk (he ▸ rfl))
      refine ⟨d, List.mem_cons_of_mem _ (List.mem_filter.mpr ⟨hd, ?_⟩), hdc⟩
      simpa [hdc] using hk

theorem pairwise_key_distinct (cs : List Cycle) :
    (distinct cs).Pairwise fun c d => c.key ≠ d.key := by
  induction cs with
  | nil => exact .nil
  | cons c cs ih =>
    rw [distinct_cons]
    refine .cons ?_ (ih.sublist List.filter_sublist)
    intro d hd
    exact Ne.symm (of_decide_eq_true (List.mem_filter.mp hd).2)

theorem distinct_eq_self {cs : List Cycle} (h : cs.Pairwise fun c d => c.key ≠ d.key) :
    distinct cs = cs := by
  induction cs with
  | nil => rfl
  | cons c cs ih =>
    obtain ⟨hc, hcs⟩ := List.pairwise_cons.mp h
    rw [distinct_cons, ih hcs, List.filter_eq_self.mpr]
    exact fun d hd => decide_eq_true (Ne.symm (hc d hd))

def firstRotations : List Cycle → List Cycle
  | [] => []
  | c :: cs => c :: (firstRotations cs).filter fun d => ¬ c ~r d

theorem firstRotations_sublist (cs : List Cycle) : (firstRotations cs).Sublist cs := by
  induction cs with
  | nil => exact .slnil
  | cons c cs ih => exact (List.filter_sublist.trans ih).cons_cons c

theorem pairwise_firstRotations (cs : List Cycle) :
    (firstRotations cs).Pairwise (fun c d => ¬ c ~r d) := by
  induction cs with
  | nil => exact .nil
  | cons c cs ih =>
    refine .cons ?_ (ih.sublist List.filter_sublist)
    intro d hd
    simpa using (List.mem_filter.mp hd).2

theorem eq_of_pairwise {cs : List Cycle} (h : cs.Pairwise fun c d => ¬ c ~r d) {c d : Cycle}
    (hc : c ∈ cs) (hd : d ∈ cs) (hr : c ~r d) : c = d := by
  have hsymm : Std.Symm fun c d : Cycle => ¬ c ~r d := ⟨fun _ _ hne hr => hne hr.symm⟩
  by_contra hne
  exact h.forall hc hd hne hr

theorem exists_mem_firstRotations {cs : List Cycle} {c : Cycle} (h : c ∈ cs) :
    ∃ d ∈ firstRotations cs, d ~r c := by
  induction cs with
  | nil => cases h
  | cons b cs ih =>
    by_cases hb : b ~r c
    · exact ⟨b, List.mem_cons_self, hb⟩
    · obtain ⟨d, hd, hdc⟩ := ih ((List.mem_cons.mp h).resolve_left fun he => hb (he ▸ .refl _))
      refine ⟨d, List.mem_cons_of_mem _ (List.mem_filter.mpr ⟨hd, ?_⟩), hdc⟩
      simpa using fun hbd => hb (hbd.trans hdc)

theorem filter_firstRotations {p : Cycle → Bool} (hp : ∀ c d, c ~r d → p c = p d)
    (cs : List Cycle) : (firstRotations cs).filter p = firstRotations (cs.filter p) := by
  induction cs with
  | nil => rfl
  | cons c cs ih =>
    rw [firstRotations, List.filter_cons, List.filter_cons, List.filter_filter]
    by_cases hc : p c = true
    · rw [if_pos hc, if_pos hc, firstRotations, ← ih, List.filter_filter]
      simp only [Bool.and_comm]
    · rw [if_neg hc, if_neg hc, ← ih]
      apply List.filter_congr
      intro d _
      by_cases hd : c ~r d
      · have hpd : p d = false := by
          rw [← hp c d hd]
          simpa using hc
        simp [hpd]
      · simp [hd]

theorem distinct_eq_firstRotations {cs : List Cycle}
    (h : ∀ c ∈ cs, ∀ d ∈ cs, d.key = c.key ↔ c ~r d) : distinct cs = firstRotations cs := by
  induction cs with
  | nil => rfl
  | cons c cs ih =>
    rw [distinct_cons, firstRotations,
      ih fun a ha b hb => h a (List.mem_cons_of_mem _ ha) b (List.mem_cons_of_mem _ hb)]
    congr 1
    apply List.filter_congr
    intro d hd
    have hm := (firstRotations_sublist cs).mem hd
    simp [h c List.mem_cons_self d (List.mem_cons_of_mem _ hm)]

theorem exists_perm_forall₂ {cs ds : List Cycle} (hc : cs.Pairwise fun c d => ¬ c ~r d)
    (hd : ds.Pairwise fun c d => ¬ c ~r d) (hcd : ∀ c ∈ cs, ∃ d ∈ ds, c ~r d)
    (hdc : ∀ d ∈ ds, ∃ c ∈ cs, c ~r d) :
    ∃ es, es.Perm ds ∧ List.Forall₂ (fun c e => c ~r e) cs es := by
  induction cs generalizing ds with
  | nil =>
    have hnil : ds = [] := by
      apply List.eq_nil_iff_forall_not_mem.mpr
      intro d hm
      obtain ⟨c, hc, -⟩ := hdc d hm
      cases hc
    exact ⟨[], hnil ▸ .refl _, .nil⟩
  | cons c cs ih =>
    obtain ⟨hcc, hcs⟩ := List.pairwise_cons.mp hc
    obtain ⟨d, hdm, hcd'⟩ := hcd c List.mem_cons_self
    have hnodup : ds.Nodup := by
      refine hd.imp ?_
      rintro a _ hne rfl
      exact hne (.refl a)
    have hcover : ∀ a ∈ cs, ∃ b ∈ ds.erase d, a ~r b := by
      intro a ha
      obtain ⟨b, hb, hab⟩ := hcd a (List.mem_cons_of_mem _ ha)
      refine ⟨b, (List.Nodup.mem_erase_iff hnodup).mpr ⟨?_, hb⟩, hab⟩
      rintro rfl
      exact hcc a ha (hcd'.trans hab.symm)
    have hcover' : ∀ b ∈ ds.erase d, ∃ a ∈ cs, a ~r b := by
      intro b hb
      obtain ⟨hne, hb⟩ := (List.Nodup.mem_erase_iff hnodup).mp hb
      obtain ⟨a, ha, hab⟩ := hdc b hb
      rcases List.mem_cons.mp ha with rfl | ha
      · exact absurd (eq_of_pairwise hd hdm hb (hcd'.symm.trans hab)) hne.symm
      · exact ⟨a, ha, hab⟩
    obtain ⟨es, hperm, hall⟩ := ih hcs (hd.sublist List.erase_sublist) hcover hcover'
    exact ⟨d :: es, (hperm.cons d).trans (List.perm_cons_erase hdm).symm, .cons hcd' hall⟩

end WorkspaceCycles.Cycle
