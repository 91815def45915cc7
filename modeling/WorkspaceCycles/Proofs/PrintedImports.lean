import Mathlib.Data.List.Pairwise
import WorkspaceCycles.Proofs.PrintedCalls

namespace WorkspaceCycles.Source

theorem length_print_lt_rest (s : Statement) (more : List Char) :
    more.length < (s.rest more).length := by
  rw [s.rest_eq, List.length_append, List.length_cons]
  omega

theorem length_rest_lt_print (s : Statement) (ss : List Statement) :
    (s.rest (print ss)).length < (print (s :: ss)).length := by
  rw [print, List.length_append, List.length_cons]
  omega

theorem left_lt_of_mem_printedHits {ss : List Statement} {found : Form × Hit}
    (h : found ∈ printedHits ss) : found.2.left < (print ss).length := by
  induction ss with
  | nil => cases h
  | cons s ss ih =>
    have hs := length_rest_lt_print s ss
    rcases List.mem_cons.mp h with rfl | h
    · exact hs
    · exact Nat.lt_trans (ih h) (Nat.lt_trans (length_print_lt_rest s _) hs)

theorem pairwise_printedHits (ss : List Statement) :
    (printedHits ss).Pairwise fun a b => b.2.left < a.2.left := by
  induction ss with
  | nil => exact .nil
  | cons s ss ih =>
    refine List.pairwise_cons.mpr ⟨?_, ih⟩
    intro found hf
    exact Nat.lt_trans (left_lt_of_mem_printedHits hf) (length_print_lt_rest s _)

theorem mergeSort_eq_of_perm {hits l : List Hit} (h : hits.Perm l)
    (hl : l.Pairwise fun a b => b.left < a.left) :
    hits.mergeSort (fun a b => b.left ≤ a.left) = l := by
  let le : Hit → Hit → Bool := fun a b => b.left ≤ a.left
  have htrans : ∀ a b c : Hit, le a b → le b c → le a c := by
    simp only [le, decide_eq_true_eq]
    omega
  have htotal : ∀ a b : Hit, le a b || le b a := by
    simp only [le, Bool.or_eq_true, decide_eq_true_eq]
    omega
  have hsorted : (hits.mergeSort le).Pairwise fun a b => b.left ≤ a.left := by
    simpa only [le, decide_eq_true_eq] using List.pairwise_mergeSort htrans htotal hits
  have hle : l.Pairwise fun a b => b.left ≤ a.left := hl.imp Nat.le_of_lt
  have hne : l.Pairwise fun a b => a.left ≠ b.left := hl.imp Nat.ne_of_gt
  have hperm := (hits.mergeSort_perm fun a b => b.left ≤ a.left).trans h
  refine hperm.eq_of_pairwise ?_ hsorted hle
  intro a b ha hb hba hab
  have hsymm : Std.Symm fun a b : Hit => a.left ≠ b.left := ⟨fun _ _ => Ne.symm⟩
  by_contra h
  exact hne.forall (hperm.subset ha) hb h (Nat.le_antisymm hab hba)

def Form.isListed (skipTypeOnly skipDynamicImports : Bool) (f : Form) : Bool :=
  !(f.isTypeOnly && skipTypeOnly) && !(f.isDynamic && skipDynamicImports)

theorem perm_filter_callee? (l : List (Form × Hit)) :
    (l.filter (·.1.callee? == none) ++ l.filter (·.1.callee? == some "require".toList) ++
      l.filter (·.1.callee? == some "import".toList)).Perm l := by
  have hrequire : ∀ f : Form, (f.callee? == some "require".toList && !(f.callee? == none)) =
      (f.callee? == some "require".toList) := by
    intro f
    cases f <;> simp [Form.callee?]
  have himport : ∀ f : Form, (!(f.callee? == some "require".toList) && !(f.callee? == none)) =
      (f.callee? == some "import".toList) := by
    intro f
    cases f <;> simp [Form.callee?]
  have hcalls := (l.filter fun found => !(found.1.callee? == none)).filter_append_perm
    (·.1.callee? == some "require".toList)
  simp only [List.filter_filter, hrequire, himport] at hcalls
  rw [List.append_assoc]
  exact (hcalls.append_left _).trans (l.filter_append_perm (·.1.callee? == none))

theorem filter_statements_print (ss : List Statement) (skipTypeOnly skipDynamicImports : Bool) :
    ((statements (print ss)).filter fun found => !(found.1 && skipTypeOnly)).map (·.2) =
      (((printedHits ss).filter (·.1.isListed skipTypeOnly skipDynamicImports)).filter
        (·.1.callee? == none)).map (·.2) := by
  have hform : ∀ f : Form, (!(f.isTypeOnly && skipTypeOnly) && f.callee? == none) =
      (f.callee? == none && f.isListed skipTypeOnly skipDynamicImports) := by
    intro f
    cases f <;> simp [Form.isListed, Form.callee?, Form.isDynamic]
  rw [statements_print, List.filter_map, List.map_map, List.filter_filter, List.filter_filter]
  simp only [Function.comp_def, hform]

theorem filter_calls_require (ss : List Statement) (skipTypeOnly skipDynamicImports : Bool) :
    calls "require".toList false (print ss) =
      (((printedHits ss).filter (·.1.isListed skipTypeOnly skipDynamicImports)).filter
        (·.1.callee? == some "require".toList)).map (·.2) := by
  have hform : ∀ f : Form, (f.callee? == some "require".toList) =
      (f.callee? == some "require".toList && f.isListed skipTypeOnly skipDynamicImports) := by
    intro f
    cases f <;> simp [Form.isListed, Form.callee?, Form.isDynamic, Form.isTypeOnly]
  rw [calls_print (.inl rfl), List.filter_filter]
  simp only [← hform]

theorem filter_calls_import (ss : List Statement) (skipTypeOnly skipDynamicImports : Bool) :
    (if skipDynamicImports then [] else calls "import".toList false (print ss)) =
      (((printedHits ss).filter (·.1.isListed skipTypeOnly skipDynamicImports)).filter
        (·.1.callee? == some "import".toList)).map (·.2) := by
  have hform : ∀ f : Form, (!skipDynamicImports && f.callee? == some "import".toList) =
      (f.callee? == some "import".toList && f.isListed skipTypeOnly skipDynamicImports) := by
    intro f
    cases f <;> simp [Form.isListed, Form.callee?, Form.isDynamic, Form.isTypeOnly]
  rw [calls_print (.inr rfl), List.filter_filter]
  simp only [← hform]
  cases skipDynamicImports <;> simp

theorem map_specifier_printedHits (ss : List Statement) (p : Form → Bool) :
    ((printedHits ss).filter (p ·.1)).map (fun found => String.ofList found.2.specifier) =
      (ss.filter (p ·.form)).map fun s => String.ofList s.specifier.text := by
  induction ss with
  | nil => rfl
  | cons s ss ih =>
    rw [printedHits, List.filter_cons, List.filter_cons]
    split
    · rw [List.map_cons, List.map_cons, ih]
      rfl
    · exact ih

/-- Printed statements give their specifiers back, but for those that are left out on request. -/
theorem specifiers_print (ss : List Statement) (skipTypeOnly skipDynamicImports : Bool) :
    specifiers (print ss) skipTypeOnly skipDynamicImports =
      (ss.filter fun s => !(s.form.isTypeOnly && skipTypeOnly) &&
        !(s.form.isDynamic && skipDynamicImports)).map fun s => String.ofList s.specifier.text := by
  have hlisted := perm_filter_callee?
    ((printedHits ss).filter (·.1.isListed skipTypeOnly skipDynamicImports))
  have hperm := hlisted.map (·.2)
  rw [List.map_append, List.map_append, ← filter_statements_print, ← filter_calls_require,
    ← filter_calls_import] at hperm
  have hlt : (((printedHits ss).filter (·.1.isListed skipTypeOnly skipDynamicImports)).map
      (·.2)).Pairwise fun a b => b.left < a.left :=
    List.pairwise_map.mpr ((pairwise_printedHits ss).filter _)
  rw [specifiers, dropComments_print]
  simp only [mergeSort_eq_of_perm hperm hlt, List.map_map]
  exact map_specifier_printedHits ss (Form.isListed skipTypeOnly skipDynamicImports)

end WorkspaceCycles.Source
