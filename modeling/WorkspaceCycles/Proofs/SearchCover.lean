import WorkspaceCycles.Proofs.SearchPath

/-!
The edges that close witnesses cut all cycles. A name turns black only after its neighbours, but
for those that an edge leads back to; so along the other edges one gets from black names to names
that turned black before, and never back to the start.
-/

namespace WorkspaceCycles

def Cycle.closings (cs : List Cycle) : List (String × String) :=
  cs.filterMap Cycle.closing?

namespace NameGraph

namespace Search

variable {g : NameGraph}

def IsOpen (s : Search g) (a b : String) : Prop :=
  b ∈ g.neighbours a ∧ (a, b) ∉ Cycle.closings s.witnesses

def Done (s : Search g) (a b : String) : Prop :=
  s.colour b = .black ∨ (a, b) ∈ Cycle.closings s.witnesses ∧ s.colour b ≠ .white

structure Grown (s t : Search g) : Prop where
  met : ∀ x, s.colour x ≠ .white → t.colour x ≠ .white
  black : ∀ x, s.colour x = .black → t.colour x = .black
  closing : ∀ e ∈ Cycle.closings s.witnesses, e ∈ Cycle.closings t.witnesses

namespace Grown

theorem done {s t : Search g} (h : Grown s t) {a b : String} (hd : s.Done a b) : t.Done a b := by
  rcases hd with hb | ⟨hc, hm⟩
  · exact .inl (h.black b hb)
  · exact .inr ⟨h.closing _ hc, h.met b hm⟩

theorem acc {s t : Search g} (h : Grown s t) {x : String}
    (ha : Acc (fun b a => s.IsOpen a b) x) : Acc (fun b a => t.IsOpen a b) x := by
  apply Subrelation.accessible _ ha
  rintro b a ⟨hn, hc⟩
  exact ⟨hn, fun hs => hc (h.closing _ hs)⟩

theorem calls (s : Search g) (calls : List (Frame g)) : Grown s { s with calls } :=
  ⟨fun _ => id, fun _ => id, fun _ => id⟩

theorem record (s : Search g) (c : Cycle) : Grown s (s.record c) where
  met _ := id
  black _ := id
  closing e he := by
    rw [Cycle.closings, Search.record, List.filterMap_append]
    exact List.mem_append_left _ he

theorem enter {s : Search g} {name : String} (hw : s.colour name = .white) :
    Grown s (s.enter name) where
  met x hx := by
    rw [colour_enter]
    split <;> simp [hx]
  black x hx := by
    rw [colour_enter, if_neg, hx]
    rintro rfl
    rw [hw] at hx
    cases hx
  closing _ := id

theorem leave (s : Search g) (f : Frame g) (below : List (Frame g)) :
    Grown s (s.leave f below) where
  met x hx := by
    rw [colour_leave]
    split <;> simp [hx]
  black x hx := by
    rw [colour_leave]
    split
    · rfl
    · exact hx
  closing _ := id

theorem trans {s t u : Search g} (h : Grown s t) (h' : Grown t u) : Grown s u :=
  ⟨fun x hx => h'.met x (h.met x hx), fun x hx => h'.black x (h.black x hx),
    fun e he => h'.closing e (h.closing e he)⟩

end Grown

def Waits (s : Search g) (e f : Frame g) : Prop :=
  ∀ y ∈ g.neighbours f.name, y ∈ f.rest ∨ s.Done f.name y ∨ y = e.name

structure Settled (s : Search g) : Prop where
  acc : ∀ x, s.colour x = .black → Acc (fun b a => s.IsOpen a b) x
  met : ∀ x, s.colour x = .black → ∀ y ∈ g.neighbours x, s.colour y ≠ .white
  last : ∀ f ∈ s.calls.head?, ∀ y ∈ g.neighbours f.name, y ∈ f.rest ∨ s.Done f.name y
  waits : s.calls.IsChain s.Waits

theorem settled_start : Settled (start g) where
  acc x hx := by rw [colour_start] at hx; cases hx
  met x hx := by rw [colour_start] at hx; cases hx
  last f hf := by cases hf
  waits := .nil

theorem Waits.grown {s t : Search g} (h : Grown s t) {e f : Frame g} (hw : s.Waits e f) :
    t.Waits e f := by
  intro y hy
  rcases hw y hy with hr | hd | he
  · exact .inl hr
  · exact .inr (.inl (h.done hd))
  · exact .inr (.inr he)

namespace Settled

theorem of_grown {s t : Search g} (h : Settled s) (hg : Grown s t)
    (hb : ∀ x, t.colour x = .black → s.colour x = .black)
    (hlast : ∀ f ∈ t.calls.head?, ∀ y ∈ g.neighbours f.name, y ∈ f.rest ∨ t.Done f.name y)
    (hwaits : t.calls.IsChain t.Waits) : Settled t where
  acc x hx := hg.acc (h.acc x (hb x hx))
  met x hx y hy := hg.met y (h.met x (hb x hx) y hy)
  last := hlast
  waits := hwaits

theorem waits_advance {s : Search g} (h : Settled s) {f : Frame g} {below : List (Frame g)}
    (hs : s.calls = f :: below) : (f.advance :: below).IsChain s.Waits := by
  have hw := h.waits
  rw [hs] at hw
  cases below with
  | nil => exact .singleton _
  | cons e below =>
    rw [List.isChain_cons_cons] at hw ⊢
    exact hw

theorem last_advance {s : Search g} (h : Settled s) {f : Frame g} {below : List (Frame g)}
    {next : String} {rest : List String} (hs : s.calls = f :: below) (hf : f.rest = next :: rest)
    {y : String} (hy : y ∈ g.neighbours f.name) :
    y = next ∨ y ∈ f.advance.rest ∨ s.Done f.name y := by
  rcases h.last f (by simp [hs]) y hy with hr | hd
  · have ha : f.advance.rest = rest := by simp [Frame.advance, hf]
    rw [hf, List.mem_cons] at hr
    rw [ha]
    exact hr.imp_right .inl
  · exact .inr (.inr hd)

theorem enter {s : Search g} (h : Settled s) {name : String} (hw : s.colour name = .white)
    (calls : List (Frame g)) (hc : (.ofName g name :: calls : List (Frame g)).IsChain s.Waits) :
    Settled ({ s with calls }.enter name) := by
  have hg : Grown s ({ s with calls }.enter name) := (Grown.calls s calls).trans (Grown.enter hw)
  refine h.of_grown hg ?_ ?_ ?_
  · intro x hx
    rw [colour_enter] at hx
    split at hx
    · cases hx
    · exact hx
  · intro f hf y hy
    cases hf
    exact .inl hy
  · exact hc.imp fun _ _ => Waits.grown hg

theorem leave {s : Search g} (h : Settled s) {f : Frame g} {below : List (Frame g)}
    (hs : s.calls = f :: below) (hf : f.rest = []) : Settled (s.leave f below) := by
  have hg := Grown.leave s f below
  have hdone : ∀ y ∈ g.neighbours f.name, s.Done f.name y := by
    intro y hy
    exact (h.last f (by simp [hs]) y hy).resolve_left (by simp [hf])
  have hchain := h.waits
  rw [hs] at hchain
  refine ⟨?_, ?_, ?_, ?_⟩
  · intro x hx
    rw [colour_leave] at hx
    split at hx
    · rename_i he
      refine he ▸ hg.acc (.intro _ fun y hy => ?_)
      exact h.acc y ((hdone y hy.1).resolve_right fun hc => hy.2 hc.1)
    · exact hg.acc (h.acc x hx)
  · intro x hx y hy
    rw [colour_leave] at hx
    apply hg.met
    split at hx
    · rename_i he
      rcases hdone y (he ▸ hy) with hb | ⟨-, hm⟩
      · simp [hb]
      · exact hm
    · exact h.met x hx y hy
  · intro e he y hy
    obtain ⟨below', rfl⟩ := List.head?_eq_some_iff.mp he
    rw [List.isChain_cons_cons] at hchain
    rcases hchain.1 y hy with hr | hd | rfl
    · exact .inl hr
    · exact .inr (hg.done hd)
    · exact .inr (.inl (by simp))
  · exact (List.isChain_of_isChain_cons hchain).imp fun _ _ => Waits.grown hg

theorem move {s t : Search g} (h : Settled s) (ht : Traced s) (hm : Move s t) : Settled t := by
  cases hm with
  | leave hs hf => exact h.leave hs hf
  | @enter f below next rest hs hf hc =>
    refine h.enter hc _ (List.isChain_cons_cons.mpr ⟨?_, h.waits_advance hs⟩)
    intro y hy
    rcases h.last_advance hs hf hy with he | hr | hd
    · exact .inr (.inr he)
    · exact .inl hr
    · exact .inr (.inl hd)
  | @skip f below next rest hs hf hc =>
    refine h.of_grown (Grown.calls s _) (fun _ => id) ?_ (h.waits_advance hs)
    intro e he y hy
    cases he
    rcases h.last_advance hs hf hy with rfl | hr | hd
    · exact .inr (.inl hc)
    · exact .inl hr
    · exact .inr hd
  | @record f below next rest i hs hf hc hi =>
    have hg : Grown s ((s.pass f below).record (s.path.drop i)) :=
      (Grown.calls s _).trans (Grown.record _ _)
    have hcl := (ht.witness_drop hs (Traced.next_mem hf) hi).1
    refine h.of_grown hg (fun _ => id) ?_ ((h.waits_advance hs).imp fun _ _ => Waits.grown hg)
    intro e he y hy
    cases he
    rcases h.last_advance hs hf hy with rfl | hr | hd
    · refine .inr (.inr ⟨?_, by simp [hc]⟩)
      exact List.mem_filterMap.mpr ⟨s.path.drop i, by simp [Search.record], hcl⟩
    · exact .inl hr
    · exact .inr (hg.done hd)

theorem enter_node {s : Search g} (h : Settled s) {node : String} (hc : s.calls = [])
    (hw : s.colour node = .white) : Settled (s.enter node) := by
  apply h.enter hw s.calls
  rw [hc]
  exact .singleton _

end Settled

theorem exists_settled (g : NameGraph) : ∃ s, g.search = .ok s ∧ Traced s ∧ Settled s ∧
    s.calls = [] ∧ ∀ node ∈ g.nodes, s.colour node ≠ .white := by
  obtain ⟨s, hs, ⟨ht, hd⟩, hc, hn⟩ := search_induction
    (P := fun s : Search g => Traced s ∧ Settled s) ⟨traced_start, settled_start⟩
    (fun _ h => h.1.exists_step) (fun _ _ h hm => ⟨h.1.move hm, h.2.move h.1 hm⟩)
    (fun _ _ h hc hn hw => ⟨h.1.enter_node hc hn hw, h.2.enter_node hc hw⟩)
  exact ⟨s, hs, ht, hd, hc, hn⟩

theorem black_of_reached {s : Search g} (ht : Traced s) (hd : Settled s) (hc : s.calls = [])
    (hn : ∀ node ∈ g.nodes, s.colour node ≠ .white) {x : String} (hx : g.Reached x) :
    s.colour x = .black := by
  have hblack : ∀ y, s.colour y ≠ .white → s.colour y = .black := by
    intro y hy
    have hg : s.colour y ≠ .grey := by
      rw [ne_eq, ht.grey_iff, ht.path_eq, hc]
      simp
    cases h : s.colour y with
    | white => exact absurd h hy
    | grey => exact absurd h hg
    | black => rfl
  obtain ⟨node, hnode, hp⟩ := hx
  induction hp with
  | refl => exact hblack node (hn node hnode)
  | tail _ he ih => exact hblack _ (hd.met _ ih _ he)

end Search

theorem acc_of_reached {g : NameGraph} {x : String} (hx : g.Reached x) :
    Acc (fun b a => b ∈ g.neighbours a ∧ (a, b) ∉ Cycle.closings g.witnesses) x := by
  obtain ⟨s, hs, ht, hd, hc, hn⟩ := Search.exists_settled g
  rw [witnesses_eq hs]
  exact hd.acc x (Search.black_of_reached ht hd hc hn hx)

theorem not_mem_of_acc {r : String → String → Prop} {c : Cycle} (hc : ∀ e ∈ c.edges, r e.2 e.1)
    {x : String} (h : Acc r x) : x ∉ c := by
  induction h with
  | intro x _ ih =>
    intro hx
    obtain ⟨y, hy, he⟩ := Cycle.exists_edge_of_mem hx
    exact ih y (hc _ he) hy

theorem exists_closing_mem_edges {g : NameGraph} {c : Cycle} (hc : g.IsClosedWalk c) {x : String}
    (hx : x ∈ c) (hr : g.Reached x) : ∃ w ∈ g.witnesses, ∃ e ∈ c.edges, w.closing? = some e := by
  by_contra hno
  apply not_mem_of_acc (r := fun b a => b ∈ g.neighbours a ∧ (a, b) ∉ Cycle.closings g.witnesses)
    _ (acc_of_reached hr) hx
  intro e he
  refine ⟨hc.edge e he, fun hm => hno ?_⟩
  obtain ⟨w, hw, hcl⟩ := List.mem_filterMap.mp hm
  exact ⟨w, hw, e, he, hcl⟩

theorem not_reached_of_isClosedWalk_without {g : NameGraph} {c : Cycle}
    (hc : (g.without (Cycle.closings g.witnesses)).IsClosedWalk c) {x : String} (hx : x ∈ c) :
    ¬ g.Reached x := by
  intro hr
  have hg : g.IsClosedWalk c :=
    ⟨hc.ne_nil, fun e he => (mem_neighbours_without.mp (hc.edge e he)).1⟩
  obtain ⟨w, hw, e, he, hcl⟩ := exists_closing_mem_edges hg hx hr
  exact (mem_neighbours_without.mp (hc.edge e he)).2 (List.mem_filterMap.mpr ⟨w, hw, hcl⟩)

theorem witnesses_eq_nil_iff (g : NameGraph) :
    g.witnesses = [] ↔ ∀ c, g.IsClosedWalk c → ∀ x ∈ c, ¬ g.Reached x := by
  constructor
  · intro h c hc x hx hr
    obtain ⟨w, hw, -⟩ := exists_closing_mem_edges hc hx hr
    simp [h] at hw
  · intro h
    apply List.eq_nil_iff_forall_not_mem.mpr
    intro c hc
    obtain ⟨hw, -, hr⟩ := isClosedWalk_of_mem_witnesses hc
    obtain ⟨x, hx⟩ := List.exists_mem_of_ne_nil c hw.ne_nil
    exact h c hw x hx (hr x hx)

theorem IsClosedWalk.congr {g g' : NameGraph}
    (h : ∀ x y, y ∈ g'.neighbours x ↔ y ∈ g.neighbours x) {c : Cycle} :
    g'.IsClosedWalk c ↔ g.IsClosedWalk c :=
  ⟨fun hc => ⟨hc.ne_nil, fun e he => (h _ _).mp (hc.edge e he)⟩,
    fun hc => ⟨hc.ne_nil, fun e he => (h _ _).mpr (hc.edge e he)⟩⟩

theorem Reached.congr {g g' : NameGraph} (hn : ∀ x, x ∈ g'.nodes ↔ x ∈ g.nodes)
    (h : ∀ x y, y ∈ g'.neighbours x ↔ y ∈ g.neighbours x) {x : String} :
    g'.Reached x ↔ g.Reached x := by
  unfold Reached
  simp only [hn, h]

/-- Every closed walk through a reached name uses the closing edge of a witness, so without these
edges no closed walk is left, and there are no witnesses exactly if there was none before. Neither
the order of the nodes nor that of the neighbours matters for that. -/
theorem search_complete (g : NameGraph) :
    (∀ c, g.IsClosedWalk c → (∃ x ∈ c, g.Reached x) →
      ∃ w ∈ g.witnesses, ∃ e ∈ c.edges, w.closing? = some e) ∧
    (∀ c, (g.without (Cycle.closings g.witnesses)).IsClosedWalk c → ∀ x ∈ c, ¬ g.Reached x) ∧
    (g.witnesses = [] ↔ ∀ c, g.IsClosedWalk c → ∀ x ∈ c, ¬ g.Reached x) ∧
    ∀ g' : NameGraph, (∀ x, x ∈ g'.nodes ↔ x ∈ g.nodes) →
      (∀ x y, y ∈ g'.neighbours x ↔ y ∈ g.neighbours x) →
      (g'.witnesses = [] ↔ g.witnesses = []) := by
  refine ⟨?_, fun c hc x => not_reached_of_isClosedWalk_without hc, witnesses_eq_nil_iff g, ?_⟩
  · rintro c hc ⟨x, hx, hr⟩
    exact exists_closing_mem_edges hc hx hr
  · intro g' hn h
    rw [witnesses_eq_nil_iff, witnesses_eq_nil_iff]
    simp only [IsClosedWalk.congr h, Reached.congr hn h]

end NameGraph

end WorkspaceCycles
