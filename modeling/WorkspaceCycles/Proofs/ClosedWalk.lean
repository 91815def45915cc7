import Mathlib.Data.List.Chain
import Mathlib.Data.List.Forall2
import Mathlib.Data.List.Rotate
import Mathlib.Logic.Relation
import WorkspaceCycles.Cycle
import WorkspaceCycles.NameGraph

namespace WorkspaceCycles

theorem nodup_eraseDups {α : Type} [BEq α] [LawfulBEq α] (xs : List α) : xs.eraseDups.Nodup := by
  cases xs with
  | nil => exact .nil
  | cons x xs =>
    rw [List.eraseDups_cons, List.nodup_cons, List.mem_eraseDups]
    exact ⟨by simp, nodup_eraseDups _⟩
termination_by xs.length
decreasing_by
  exact Nat.lt_succ_of_le (List.length_filter_le _ _)

namespace Cycle

def edges (c : Cycle) : List (String × String) :=
  c.zip (c.tail ++ c.head?.toList)

def closing? (c : Cycle) : Option (String × String) :=
  match c.getLast?, c.head? with
  | some last, some first => some (last, first)
  | _, _ => none

theorem length_edges (c : Cycle) : c.edges.length = c.length := by
  cases c <;> simp [edges]

theorem edges_eq_zip_rotate (c : Cycle) : c.edges = c.zip (c.rotate 1) := by
  cases c with
  | nil => rfl
  | cons a c => rw [List.rotate_cons_succ, List.rotate_zero]; rfl

theorem edges_rotate (c : Cycle) (n : Nat) : Cycle.edges (c.rotate n) = c.edges.rotate n := by
  have hl : c.length = (c.rotate 1).length := by rw [List.length_rotate]
  rw [edges_eq_zip_rotate, edges_eq_zip_rotate, List.rotate_rotate, Nat.add_comm,
    ← List.rotate_rotate]
  exact (List.zipWith_rotate_distrib Prod.mk c (c.rotate 1) n hl).symm

theorem mem_edges_of_isRotated {c d : Cycle} (h : c ~r d) {e : String × String}
    (he : e ∈ c.edges) : e ∈ d.edges := by
  obtain ⟨n, rfl⟩ := h
  rw [edges_rotate]
  exact List.mem_rotate.mpr he

theorem exists_edge_of_mem {w : Cycle} {x : String} (h : x ∈ w) :
    ∃ y ∈ w, (x, y) ∈ w.edges := by
  obtain ⟨i, hi, rfl⟩ := List.getElem_of_mem h
  have he : i < w.edges.length := by rwa [length_edges]
  refine ⟨w.edges[i].2, ?_, ?_⟩
  · have hm := List.of_mem_zip (List.getElem_mem he)
    cases w with
    | nil => simp at hi
    | cons a w =>
      have hy := hm.2
      simp only [List.tail_cons, List.head?_cons, Option.toList_some, List.mem_append,
        List.mem_singleton] at hy
      rw [List.mem_cons]
      exact hy.symm
  · have hfst : w.edges[i].1 = w[i] := by simp [edges]
    rw [← hfst]
    exact List.getElem_mem he

end Cycle

namespace NameGraph

structure IsClosedWalk (g : NameGraph) (c : Cycle) : Prop where
  ne_nil : c ≠ []
  edge : ∀ e ∈ c.edges, e.2 ∈ g.neighbours e.1

def Reached (g : NameGraph) (name : String) : Prop :=
  ∃ node ∈ g.nodes, Relation.ReflTransGen (fun a b => b ∈ g.neighbours a) node name

theorem Reached.next {g : NameGraph} {a b : String} (h : g.Reached a) (hb : b ∈ g.neighbours a) :
    g.Reached b := by
  obtain ⟨node, hn, hp⟩ := h
  exact ⟨node, hn, hp.tail hb⟩

theorem reached_of_mem_nodes {g : NameGraph} {name : String} (h : name ∈ g.nodes) :
    g.Reached name :=
  ⟨name, h, .refl⟩

theorem isClosedWalk_cons_iff {g : NameGraph} {a : String} {c : List String} :
    g.IsClosedWalk (a :: c) ↔
      (a :: c ++ [a]).IsChain (fun x y => y ∈ g.neighbours x) := by
  rw [List.isChain_cons_append_singleton_iff_forall₂, List.forall₂_iff_zip]
  constructor
  · intro h
    exact ⟨by simp, fun he => h.edge _ he⟩
  · intro h
    exact ⟨by simp, fun e he => h.2 he⟩

def without (g : NameGraph) (cut : List (String × String)) : NameGraph where
  nodes := g.nodes
  forward := g.forward.map fun e => (e.1, e.2.filter fun next => (e.1, next) ∉ cut)

theorem mem_neighbours_without {g : NameGraph} {cut : List (String × String)} {a b : String} :
    b ∈ (g.without cut).neighbours a ↔ b ∈ g.neighbours a ∧ (a, b) ∉ cut := by
  obtain ⟨nodes, forward⟩ := g
  simp only [neighbours, without]
  induction forward with
  | nil => simp
  | cons e forward ih =>
    obtain ⟨name, targets⟩ := e
    rw [List.map_cons, Assoc.get?_cons, Assoc.get?_cons]
    by_cases h : a = name
    · simp [h]
    · simpa [h] using ih

end NameGraph

end WorkspaceCycles
