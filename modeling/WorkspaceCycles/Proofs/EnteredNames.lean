import Mathlib.Algebra.Order.BigOperators.Group.List
import Mathlib.Algebra.Order.Ring.Nat
import Mathlib.Data.List.Perm.Subperm
import WorkspaceCycles.Proofs.SearchCover

/-!
How often a search is called, and how long it takes. A name is met by the call of the search at it
and stays met, so there is one call for each name that the nodes lead to. Each of its edges is
looked at in one move and the call returns in one more, which bounds the moves of any search.
-/

namespace WorkspaceCycles.NameGraph

namespace Search

variable {g : NameGraph}

inductive After : Nat → Search g → Prop
  | start : After 0 (start g)
  | enter {n : Nat} {s : Search g} {node : String} (h : After n s) (hc : s.calls = [])
      (hn : node ∈ g.nodes) (hw : s.colour node = .white) : After n (s.enter node)
  | move {n : Nat} {s t : Search g} (h : After n s) (hs : s.step = .ok (some t)) : After (n + 1) t

theorem step_of_move {s t : Search g} (ht : Traced s) (h : Move s t) : s.step = .ok (some t) := by
  cases h with
  | leave hs hf => simp only [step, hs, hf, if_neg (ht.path_ne_nil (by simp [hs]))]
  | enter hs hf hc => simp only [step, hs, hf, hc]
  | skip hs hf hc => simp only [step, hs, hf, hc]
  | record hs hf hc hi => simp only [step, hs, hf, hc, hi]

/-- The moves that the calls at some names take in all: one for each edge, and one to return. -/
def work (g : NameGraph) (names : List String) : Nat :=
  (names.map fun name => (g.neighbours name).length + 1).sum

theorem work_concat (names : List String) (name : String) :
    work g (names ++ [name]) = work g names + ((g.neighbours name).length + 1) := by
  simp [work]

theorem work_le_of_subset {names names' : List String} (hn : names.Nodup)
    (h : names ⊆ names') : work g names ≤ work g names' := by
  obtain ⟨part, hp, hs⟩ := hn.subperm h
  calc
    work g names = work g part := ((hp.map _).sum_eq).symm
    _ ≤ work g names' := (hs.map _).sum_le_sum fun _ _ => Nat.zero_le _

theorem pending_pass {s : Search g} {f : Frame g} {below : List (Frame g)} {next : String}
    {rest : List String} (hs : s.calls = f :: below) (hf : f.rest = next :: rest) :
    pending s.calls = pending (s.pass f below).calls + 1 := by
  rw [hs]
  simp only [pass, pending, Frame.advance, hf, List.tail_cons, List.length_cons]
  omega

structure Counted (n : Nat) (s : Search g) : Prop where
  traced : Traced s
  nodup : s.entered.Nodup
  mem_iff : ∀ x, x ∈ s.entered ↔ s.colour x ≠ .white
  moves : n + pending s.calls = work g s.entered

namespace Counted

variable {n : Nat} {s t : Search g}

theorem start : Counted 0 (Search.start g) where
  traced := traced_start
  nodup := .nil
  mem_iff x := by
    rw [colour_start]
    exact iff_of_false List.not_mem_nil (fun h => h rfl)
  moves := rfl

theorem enter (h : Counted n s) {name : String} (ht : Traced (s.enter name))
    (hw : s.colour name = .white) : Counted n (s.enter name) where
  traced := ht
  nodup := by
    have hnot : name ∉ s.entered := fun hm => (h.mem_iff name).mp hm hw
    exact List.nodup_append.mpr ⟨h.nodup, List.nodup_singleton name, by
      rintro a ha b hb rfl
      exact hnot (List.mem_singleton.mp hb ▸ ha)⟩
  mem_iff x := by
    rw [show (s.enter name).entered = s.entered ++ [name] from rfl, List.mem_append,
      List.mem_singleton, h.mem_iff, colour_enter]
    by_cases hx : x = name <;> simp [hx]
  moves := by
    have hcalls : pending (s.enter name).calls =
        (g.neighbours name).length + 1 + pending s.calls := rfl
    have hmoves := h.moves
    rw [hcalls, show (s.enter name).entered = s.entered ++ [name] from rfl, work_concat]
    omega

theorem pass (h : Counted n s) {f : Frame g} {below : List (Frame g)} {next : String}
    {rest : List String} (hs : s.calls = f :: below) (hf : f.rest = next :: rest) :
    Counted (n + 1) (s.pass f below) where
  traced := h.traced.pass hs
  nodup := h.nodup
  mem_iff := h.mem_iff
  moves := by
    have hmoves := h.moves
    rw [pending_pass hs hf] at hmoves
    rw [show (s.pass f below).entered = s.entered from rfl]
    omega

theorem leave (h : Counted n s) {f : Frame g} {below : List (Frame g)}
    (hs : s.calls = f :: below) (hf : f.rest = []) : Counted (n + 1) (s.leave f below) where
  traced := h.traced.leave hs
  nodup := h.nodup
  mem_iff x := by
    have hgrey : s.colour f.name = .grey :=
      (h.traced.grey_iff f.name).mpr (by simp [h.traced.path_eq_append hs])
    rw [show (s.leave f below).entered = s.entered from rfl, h.mem_iff, colour_leave]
    by_cases hx : x = f.name <;> simp [hx, hgrey]
  moves := by
    have hmoves := h.moves
    rw [hs, pending, hf, List.length_nil] at hmoves
    rw [show (s.leave f below).entered = s.entered from rfl,
      show (s.leave f below).calls = below from rfl]
    omega

theorem move (h : Counted n s) (hm : Move s t) : Counted (n + 1) t := by
  have ht := h.traced.move hm
  cases hm with
  | leave hs hf => exact h.leave hs hf
  -- a move to a white name passes its edge and calls the search there
  | enter hs hf hc => exact (h.pass hs hf).enter ht hc
  | skip hs hf hc => exact h.pass hs hf
  | record hs hf hc hi => exact { h.pass hs hf with traced := ht }

end Counted

theorem After.counted {n : Nat} {s : Search g} (h : After n s) : Counted n s := by
  induction h with
  | start => exact .start
  | enter _ hc hn hw ih => exact ih.enter (ih.traced.enter_node hc hn hw) hw
  | move _ hs ih => exact ih.move (move_of_step hs)

theorem exists_after (g : NameGraph) :
    ∃ s n, g.search = .ok s ∧ After n s ∧ s.calls = [] := by
  obtain ⟨s, hs, ⟨n, ha⟩, hc, -⟩ := search_induction (P := fun s : Search g => ∃ n, After n s)
    ⟨0, .start⟩ (fun _ ⟨_, ha⟩ => ha.counted.traced.exists_step)
    (fun _ _ ⟨n, ha⟩ hm => ⟨n + 1, ha.move (step_of_move ha.counted.traced hm)⟩)
    (fun _ _ ⟨n, ha⟩ hc hn hw => ⟨n, ha.enter hc hn hw⟩)
  exact ⟨s, n, hs, ha, hc⟩

theorem colour_of_search {s : Search g} (hs : g.search = .ok s) (x : String) :
    (g.Reached x → s.colour x = .black) ∧ (¬ g.Reached x → s.colour x = .white) := by
  obtain ⟨t, ht, htr, hd, hc, hn⟩ := exists_settled g
  obtain rfl : t = s := Except.ok.inj (ht.symm.trans hs)
  exact ⟨black_of_reached htr hd hc hn, fun hx => by_contra fun hne => hx (htr.reached x hne)⟩

end Search

/-- The search ends, whatever names the graph repeats or leaves out. It is called once at each name
that the nodes lead to and nowhere else; in the end no call and no name of the path is left, and
the names it was called at are black, all others white. It has then made one move for each call and
for each edge out of these names, and no search of the graph can make more. -/
theorem search_enters_once (g : NameGraph) :
    ∃ s n, g.search = .ok s ∧ Search.After n s ∧
      s.entered.Nodup ∧ (∀ x, x ∈ s.entered ↔ g.Reached x) ∧
      s.calls = [] ∧ s.path = [] ∧
      (∀ x, (g.Reached x → s.colour x = .black) ∧ (¬ g.Reached x → s.colour x = .white)) ∧
      n = (s.entered.map fun name => (g.neighbours name).length + 1).sum ∧
      ∀ m (t : Search g), Search.After m t → m ≤ n := by
  obtain ⟨s, n, hs, ha, hc⟩ := Search.exists_after g
  have hcount := ha.counted
  have hcolour := Search.colour_of_search hs
  have hentered : ∀ x, x ∈ s.entered ↔ g.Reached x := by
    intro x
    rw [hcount.mem_iff]
    refine ⟨hcount.traced.reached x, fun hx => ?_⟩
    simp [(hcolour x).1 hx]
  have hmoves : n = Search.work g s.entered := by
    have h := hcount.moves
    rwa [hc] at h
  refine ⟨s, n, hs, ha, hcount.nodup, hentered, hc, ?_, hcolour, hmoves, fun m t hm => ?_⟩
  · rw [hcount.traced.path_eq, hc]
    rfl
  · have ht := hm.counted
    have hle : Search.work g t.entered ≤ Search.work g s.entered :=
      Search.work_le_of_subset ht.nodup fun x hx =>
        (hentered x).mpr (ht.traced.reached x ((ht.mem_iff x).mp hx))
    have hwork := ht.moves
    omega

end WorkspaceCycles.NameGraph
