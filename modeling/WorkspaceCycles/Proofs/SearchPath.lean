import WorkspaceCycles.Issue.OfCycle
import WorkspaceCycles.Proofs.ClosedWalk
import WorkspaceCycles.Proofs.SearchMoves

namespace WorkspaceCycles.NameGraph

namespace Search

variable {g : NameGraph}

structure Traced (s : Search g) : Prop where
  path_eq : s.path = (s.calls.map Frame.name).reverse
  nodup : s.path.Nodup
  linked : s.path.IsChain (fun a b => b ∈ g.neighbours a)
  grey_iff : ∀ x, s.colour x = .grey ↔ x ∈ s.path
  reached : ∀ x, s.colour x ≠ .white → g.Reached x
  witness : ∀ c ∈ s.witnesses, g.IsClosedWalk c ∧ c.Nodup ∧ ∀ x ∈ c, s.colour x ≠ .white

theorem colour_start (x : String) : (start g).colour x = .white := by
  unfold colour start
  cases h : Assoc.get? (Assoc.ofPairs (g.nodes.map fun name => (name, Colour.white))) x with
  | none => rfl
  | some c =>
    obtain ⟨name, -, he⟩ := List.mem_map.mp (Assoc.mem_of_get?_ofPairs h)
    cases he
    rfl

theorem traced_start : Traced (start g) where
  path_eq := rfl
  nodup := .nil
  linked := .nil
  grey_iff x := by
    rw [colour_start]
    simp [start]
  reached x hx := absurd (colour_start x) hx
  witness c hc := by simp [start] at hc

namespace Traced

theorem getLast?_path {s : Search g} (h : Traced s) :
    s.path.getLast? = s.calls.head?.map Frame.name := by
  rw [h.path_eq, List.getLast?_reverse, List.head?_map]

theorem path_ne_nil {s : Search g} (h : Traced s) (hc : s.calls ≠ []) : s.path ≠ [] := by
  rw [h.path_eq]
  simpa using hc

theorem exists_step {s : Search g} (h : Traced s) : ∃ next, s.step = .ok next :=
  Search.exists_step h.path_ne_nil fun x hx => (h.grey_iff x).mp hx

theorem path_eq_append {s : Search g} (h : Traced s) {f : Frame g} {below : List (Frame g)}
    (hs : s.calls = f :: below) :
    s.path = (below.map Frame.name).reverse ++ [f.name] := by
  rw [h.path_eq, hs, List.map_cons, List.reverse_cons]

theorem pass {s : Search g} (h : Traced s) {f : Frame g} {below : List (Frame g)}
    (hs : s.calls = f :: below) : Traced (s.pass f below) where
  path_eq := by
    rw [show (s.pass f below).path = s.path from rfl, h.path_eq, hs]
    rfl
  nodup := h.nodup
  linked := h.linked
  grey_iff := h.grey_iff
  reached := h.reached
  witness := h.witness

theorem enter {s : Search g} (h : Traced s) {name : String} (hw : s.colour name = .white)
    (hr : g.Reached name) (hl : ∀ f ∈ s.calls.head?, name ∈ g.neighbours f.name) :
    Traced (s.enter name) where
  path_eq := by
    rw [show (s.enter name).path = s.path ++ [name] from rfl, h.path_eq]
    simp [Search.enter, Frame.ofName]
  nodup := by
    have hn : name ∉ s.path := by
      rw [← h.grey_iff, hw]
      simp
    exact List.nodup_append.mpr ⟨h.nodup, by simp, by
      rintro a ha b hb rfl
      exact hn (List.mem_singleton.mp hb ▸ ha)⟩
  linked := by
    refine List.isChain_append.mpr ⟨h.linked, .singleton name, ?_⟩
    intro a ha b hb
    rw [h.getLast?_path] at ha
    obtain ⟨f, hf, rfl⟩ := Option.map_eq_some_iff.mp ha
    cases hb
    exact hl f hf
  grey_iff x := by
    rw [colour_enter, show (s.enter name).path = s.path ++ [name] from rfl, List.mem_append,
      List.mem_singleton, ← h.grey_iff]
    by_cases hx : x = name <;> simp [hx]
  reached x hx := by
    rw [colour_enter] at hx
    split at hx
    · rename_i he
      exact he ▸ hr
    · exact h.reached x hx
  witness c hc := by
    obtain ⟨hw, hn, hm⟩ := h.witness c hc
    refine ⟨hw, hn, fun x hx => ?_⟩
    rw [colour_enter]
    split <;> simp [hm x hx]

theorem leave {s : Search g} (h : Traced s) {f : Frame g} {below : List (Frame g)}
    (hs : s.calls = f :: below) : Traced (s.leave f below) := by
  have hp := h.path_eq_append hs
  have hd : (s.leave f below).path = (below.map Frame.name).reverse := by
    rw [show (s.leave f below).path = s.path.dropLast from rfl, hp, List.dropLast_concat]
  have hn := h.nodup
  rw [hp] at hn
  refine ⟨hd, ?_, ?_, ?_, ?_, ?_⟩
  · rw [hd]
    exact (List.nodup_append.mp hn).1
  · exact h.linked.dropLast
  · intro x
    have hg := h.grey_iff x
    rw [hp, List.mem_append, List.mem_singleton] at hg
    rw [colour_leave, hd]
    by_cases hx : x = f.name
    · have hnot : f.name ∉ (below.map Frame.name).reverse := fun hm =>
        (List.nodup_append.mp hn).2.2 _ hm _ (List.mem_singleton.mpr rfl) rfl
      simpa [hx] using hnot
    · simpa [hx] using hg
  · intro x hx
    rw [colour_leave] at hx
    split at hx
    · rename_i he
      apply h.reached
      rw [he, (h.grey_iff f.name).mpr (by simp [hp])]
      simp
    · exact h.reached x hx
  · intro c hc
    obtain ⟨hw, hn, hm⟩ := h.witness c hc
    refine ⟨hw, hn, fun x hx => ?_⟩
    rw [colour_leave]
    split <;> simp [hm x hx]

theorem witness_drop {s : Search g} (h : Traced s) {f : Frame g} {below : List (Frame g)}
    {next : String} {i : Nat} (hs : s.calls = f :: below) (hf : next ∈ g.neighbours f.name)
    (hi : s.path.idxOf? next = some i) :
    Cycle.closing? (s.path.drop i) = some (f.name, next) ∧ g.IsClosedWalk (s.path.drop i) ∧
      (s.path.drop i).Nodup ∧ ∀ x ∈ s.path.drop i, s.colour x ≠ .white := by
  obtain ⟨hlt, hget, -⟩ := List.idxOf?_eq_some_iff.mp hi
  have hd : s.path.drop i = next :: s.path.drop (i + 1) := by
    rw [List.drop_eq_getElem_cons hlt, hget]
  have hlast : (s.path.drop i).getLast? = some f.name := by
    rw [List.getLast?_drop, if_neg (by omega), h.getLast?_path, hs]
    rfl
  refine ⟨?_, ?_, h.nodup.sublist (List.drop_sublist i _), ?_⟩
  · unfold Cycle.closing?
    rw [hlast, hd]
    rfl
  · have hc : (s.path.drop i ++ [next]).IsChain (fun a b => b ∈ g.neighbours a) := by
      refine List.isChain_append.mpr ⟨h.linked.drop i, .singleton next, ?_⟩
      intro a ha b hb
      rw [hlast] at ha
      cases ha
      cases hb
      exact hf
    rw [hd] at hc ⊢
    exact isClosedWalk_cons_iff.mpr hc
  · intro x hx
    rw [(h.grey_iff x).mpr (List.mem_of_mem_drop hx)]
    simp

theorem record {s : Search g} (h : Traced s) {c : Cycle} (hw : g.IsClosedWalk c) (hn : c.Nodup)
    (hm : ∀ x ∈ c, s.colour x ≠ .white) : Traced (s.record c) where
  path_eq := h.path_eq
  nodup := h.nodup
  linked := h.linked
  grey_iff := h.grey_iff
  reached := h.reached
  witness d hd := by
    rcases List.mem_append.mp hd with hd | hd
    · exact h.witness d hd
    · cases List.mem_singleton.mp hd
      exact ⟨hw, hn, hm⟩

theorem next_mem {f : Frame g} {next : String} {rest : List String} (hf : f.rest = next :: rest) :
    next ∈ g.neighbours f.name :=
  f.rest_subset next (hf ▸ List.mem_cons_self)

theorem reached_next {s : Search g} (h : Traced s) {f : Frame g} {below : List (Frame g)}
    {next : String} (hs : s.calls = f :: below) (hf : next ∈ g.neighbours f.name) :
    g.Reached next := by
  refine (h.reached f.name ?_).next hf
  rw [(h.grey_iff f.name).mpr (by simp [h.path_eq_append hs])]
  simp

theorem move {s t : Search g} (h : Traced s) (hm : Move s t) : Traced t := by
  cases hm with
  | leave hs hf => exact h.leave hs
  | enter hs hf hc =>
    refine (h.pass hs).enter hc (h.reached_next hs (next_mem hf)) ?_
    intro f' hf'
    cases hf'
    exact (next_mem hf :)
  | skip hs hf hc => exact h.pass hs
  | record hs hf hc hi =>
    obtain ⟨-, hw, hn, hg⟩ := h.witness_drop hs (next_mem hf) hi
    exact (h.pass hs).record hw hn hg

theorem enter_node {s : Search g} (h : Traced s) {node : String} (hc : s.calls = [])
    (hn : node ∈ g.nodes) (hw : s.colour node = .white) : Traced (s.enter node) := by
  apply h.enter hw (reached_of_mem_nodes hn)
  intro f hf
  rw [hc] at hf
  cases hf

end Traced

theorem exists_search (g : NameGraph) : ∃ s, g.search = .ok s ∧ Traced s := by
  obtain ⟨s, hs, ht, -⟩ := search_induction (P := Traced) traced_start (fun _ => Traced.exists_step)
    (fun _ _ => Traced.move) (fun _ _ ht hc hn hw => ht.enter_node hc hn hw)
  exact ⟨s, hs, ht⟩

end Search

theorem witnesses_eq {g : NameGraph} {s : Search g} (h : g.search = .ok s) :
    g.witnesses = s.witnesses := by
  rw [witnesses, h]

theorem isClosedWalk_of_mem_witnesses {g : NameGraph} {c : Cycle} (h : c ∈ g.witnesses) :
    g.IsClosedWalk c ∧ c.Nodup ∧ ∀ x ∈ c, g.Reached x := by
  obtain ⟨s, hs, ht⟩ := Search.exists_search g
  rw [witnesses_eq hs] at h
  obtain ⟨hw, hn, hm⟩ := ht.witness c h
  exact ⟨hw, hn, fun x hx => ht.reached x (hm x hx)⟩

/-- The search never breaks off, and what it finds are elementary cycles of reached names. -/
theorem search_sound (g : NameGraph) :
    (∃ s, g.search = .ok s ∧ g.witnesses = s.witnesses) ∧
      ∀ w ∈ g.witnesses, w ≠ [] ∧ w.Nodup ∧
        (∀ (i : Nat) (h : i + 1 < w.length), w[i + 1] ∈ g.neighbours w[i]) ∧
        (∀ last ∈ w.getLast?, ∀ first ∈ w.head?, first ∈ g.neighbours last) ∧
        (∀ x ∈ w, g.Reached x) ∧ ∀ s, ∃ issue, Issue.ofWorkspaceCycle s w = .ok issue := by
  obtain ⟨s, hs, -⟩ := Search.exists_search g
  refine ⟨⟨s, hs, witnesses_eq hs⟩, fun w hw => ?_⟩
  obtain ⟨hc, hn, hr⟩ := isClosedWalk_of_mem_witnesses hw
  cases w with
  | nil => exact absurd rfl hc.ne_nil
  | cons a w =>
    have hl := List.isChain_append.mp (isClosedWalk_cons_iff.mp hc)
    refine ⟨by simp, hn, ?_, ?_, hr, fun s => ⟨_, rfl⟩⟩
    · intro i hi
      exact hl.1.getElem i hi
    · intro last hlast first hfirst
      exact hl.2.2 last hlast first hfirst

end WorkspaceCycles.NameGraph
