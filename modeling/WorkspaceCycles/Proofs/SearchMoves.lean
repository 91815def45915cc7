import WorkspaceCycles.NameGraph.Witness

namespace WorkspaceCycles.NameGraph.Search

variable {g : NameGraph}

inductive Move : Search g → Search g → Prop
  | leave {s : Search g} {f : Frame g} {below : List (Frame g)} (hs : s.calls = f :: below)
      (hf : f.rest = []) : Move s (s.leave f below)
  | enter {s : Search g} {f : Frame g} {below : List (Frame g)} {next : String}
      {rest : List String} (hs : s.calls = f :: below) (hf : f.rest = next :: rest)
      (hc : s.colour next = .white) : Move s ((s.pass f below).enter next)
  | skip {s : Search g} {f : Frame g} {below : List (Frame g)} {next : String}
      {rest : List String} (hs : s.calls = f :: below) (hf : f.rest = next :: rest)
      (hc : s.colour next = .black) : Move s (s.pass f below)
  | record {s : Search g} {f : Frame g} {below : List (Frame g)} {next : String}
      {rest : List String} {i : Nat} (hs : s.calls = f :: below) (hf : f.rest = next :: rest)
      (hc : s.colour next = .grey) (hi : s.path.idxOf? next = some i) :
      Move s ((s.pass f below).record (s.path.drop i))

theorem move_of_step {s t : Search g} (h : s.step = .ok (some t)) : Move s t := by
  unfold step at h
  split at h
  · cases h
  · rename_i f below hs
    split at h
    · rename_i hf
      split at h
      · cases h
      · cases h
        exact .leave hs hf
    · rename_i next rest hf
      split at h
      · rename_i hc
        cases h
        exact .enter hs hf hc
      · rename_i hc
        cases h
        exact .skip hs hf hc
      · rename_i hc
        split at h
        · cases h
        · rename_i i hi
          cases h
          exact .record hs hf hc hi

theorem calls_eq_nil_of_step {s : Search g} (h : s.step = .ok none) : s.calls = [] := by
  unfold step at h
  split at h
  · assumption
  · split at h
    · split at h <;> cases h
    · split at h
      · cases h
      · cases h
      · split at h <;> cases h

theorem exists_step {s : Search g} (hp : s.calls ≠ [] → s.path ≠ [])
    (hc : ∀ x, s.colour x = .grey → x ∈ s.path) : ∃ next, s.step = .ok next := by
  unfold step
  split
  · exact ⟨none, rfl⟩
  · rename_i f below hs
    split
    · rw [if_neg (hp (by simp [hs]))]
      exact ⟨_, rfl⟩
    · rename_i next rest hf
      split
      · exact ⟨_, rfl⟩
      · exact ⟨_, rfl⟩
      · rename_i hg
        split
        · rename_i hi
          exact absurd (hc next hg) (List.idxOf?_eq_none_iff.mp hi)
        · exact ⟨_, rfl⟩

@[simp] theorem colour_enter (s : Search g) (name x : String) :
    (s.enter name).colour x = if x = name then .grey else s.colour x :=
  colour_paint s name .grey x

@[simp] theorem colour_leave (s : Search g) (f : Frame g) (below : List (Frame g)) (x : String) :
    (s.leave f below).colour x = if x = f.name then .black else s.colour x :=
  colour_paint s f.name .black x

@[simp] theorem colour_pass (s : Search g) (f : Frame g) (below : List (Frame g)) (x : String) :
    (s.pass f below).colour x = s.colour x :=
  rfl

@[simp] theorem colour_record (s : Search g) (c : Cycle) (x : String) :
    (s.record c).colour x = s.colour x :=
  rfl

theorem Move.colour_ne_white {s t : Search g} (h : Move s t) {x : String}
    (hx : s.colour x ≠ .white) : t.colour x ≠ .white := by
  cases h with
  | leave => rw [colour_leave]; split <;> simp [hx]
  | enter => rw [colour_enter]; split <;> simp [hx]
  | skip => exact hx
  | record => exact hx

theorem run_induction {P : Search g → Prop} (hok : ∀ s, P s → ∃ next, s.step = .ok next)
    (hmove : ∀ s t, P s → Move s t → P t) {s : Search g} (hs : P s) :
    ∃ t, s.run = .ok t ∧ P t ∧ t.calls = [] := by
  fun_induction run s with
  | case1 s fault h =>
    obtain ⟨next, hn⟩ := hok s hs
    rw [h] at hn
    cases hn
  | case2 s h => exact ⟨s, rfl, hs, calls_eq_nil_of_step h⟩
  | case3 s t h ih => exact ih (hmove s t hs (move_of_step h))

theorem visit_induction {P : Search g → Prop} (hok : ∀ s, P s → ∃ next, s.step = .ok next)
    (hmove : ∀ s t, P s → Move s t → P t)
    (henter : ∀ s node, P s → s.calls = [] → node ∈ g.nodes → s.colour node = .white →
      P (s.enter node))
    {s : Search g} {node : String} (hn : node ∈ g.nodes) (hs : P s) (hc : s.calls = []) :
    ∃ t, s.visit node = .ok t ∧ P t ∧ t.calls = [] ∧ t.colour node ≠ .white ∧
      ∀ x, s.colour x ≠ .white → t.colour x ≠ .white := by
  unfold visit
  by_cases hw : s.colour node = .white
  · rw [if_pos hw]
    obtain ⟨t, ht, ⟨hP, hmet⟩, hc'⟩ := run_induction (s := s.enter node)
      (P := fun t => P t ∧ ∀ x, (s.enter node).colour x ≠ .white → t.colour x ≠ .white)
      (fun t h => hok t h.1)
      (fun t u h hm => ⟨hmove t u h.1 hm, fun x hx => hm.colour_ne_white (h.2 x hx)⟩)
      ⟨henter s node hs hc hn hw, fun _ => id⟩
    refine ⟨t, ht, hP, hc', hmet node (by simp), fun x hx => hmet x ?_⟩
    rw [colour_enter]
    split <;> simp [hx]
  · rw [if_neg hw]
    exact ⟨s, rfl, hs, hc, hw, fun _ => id⟩

theorem search_induction {P : Search g → Prop} (hstart : P (start g))
    (hok : ∀ s, P s → ∃ next, s.step = .ok next) (hmove : ∀ s t, P s → Move s t → P t)
    (henter : ∀ s node, P s → s.calls = [] → node ∈ g.nodes → s.colour node = .white →
      P (s.enter node)) :
    ∃ t, g.search = .ok t ∧ P t ∧ t.calls = [] ∧ ∀ node ∈ g.nodes, t.colour node ≠ .white := by
  have fold (nodes : List String) (hsub : ∀ x ∈ nodes, x ∈ g.nodes) (s : Search g) (hs : P s)
      (hc : s.calls = []) :
      ∃ t, nodes.foldlM visit s = .ok t ∧ P t ∧ t.calls = [] ∧
        (∀ x, s.colour x ≠ .white → t.colour x ≠ .white) ∧
        ∀ node ∈ nodes, t.colour node ≠ .white := by
    induction nodes generalizing s with
    | nil => exact ⟨s, rfl, hs, hc, fun _ => id, by simp⟩
    | cons node nodes ih =>
      obtain ⟨t, ht, hP, hct, hnode, hmet⟩ :=
        visit_induction hok hmove henter (hsub node List.mem_cons_self) hs hc
      obtain ⟨u, hu, hPu, hcu, hmetu, hall⟩ :=
        ih (fun x hx => hsub x (List.mem_cons_of_mem _ hx)) t hP hct
      refine ⟨u, ?_, hPu, hcu, fun x hx => hmetu x (hmet x hx), ?_⟩
      · rw [List.foldlM_cons, ht]
        exact hu
      · intro x hx
        rcases List.mem_cons.mp hx with rfl | hx
        · exact hmetu x hnode
        · exact hall x hx
  obtain ⟨t, ht, hP, hc, -, hall⟩ := fold g.nodes (fun _ => id) (start g) hstart rfl
  exact ⟨t, ht, hP, hc, hall⟩

end WorkspaceCycles.NameGraph.Search
