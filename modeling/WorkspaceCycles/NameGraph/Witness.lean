import WorkspaceCycles.Cycle
import WorkspaceCycles.NameGraph

/-!
Witness cycles of a graph. A depth-first search calls itself at each name it has not met; an edge
back to a name on the current path is witnessed by the part of the path from that name on. The
calls are kept in a list, so nothing limits how many are open at once.
-/

namespace WorkspaceCycles.NameGraph

/-- A name is white until the search is called at it, grey until that call returns, and black from
then on. -/
inductive Colour where
  | white
  | grey
  | black
deriving DecidableEq, Repr

structure Frame (g : NameGraph) where
  name : String
  rest : List String
  rest_subset : ∀ x ∈ rest, x ∈ g.neighbours name

namespace Frame

variable {g : NameGraph}

def ofName (g : NameGraph) (name : String) : Frame g :=
  ⟨name, g.neighbours name, fun _ => id⟩

def advance (f : Frame g) : Frame g :=
  ⟨f.name, f.rest.tail, fun x hx => f.rest_subset x (List.mem_of_mem_tail hx)⟩

end Frame

structure Search (g : NameGraph) where
  calls : List (Frame g) := []
  colours : List (String × Colour) := []
  path : List String := []
  entered : List String := []
  witnesses : List Cycle := []

inductive SearchFault where
  | notOnPath (name : String)
  | emptyPath
deriving DecidableEq, Repr

namespace Search

variable {g : NameGraph}

def colour (s : Search g) (name : String) : Colour :=
  (Assoc.get? s.colours name).getD .white

def paint (s : Search g) (name : String) (c : Colour) : Search g :=
  { s with colours := Assoc.set s.colours name c }

theorem colour_paint (s : Search g) (name : String) (c : Colour) (x : String) :
    (s.paint name c).colour x = if x = name then c else s.colour x := by
  unfold colour paint
  rw [Assoc.get?_set]
  split <;> rfl

def enter (s : Search g) (name : String) : Search g :=
  { s.paint name .grey with
    calls := .ofName g name :: s.calls
    path := s.path ++ [name]
    entered := s.entered ++ [name] }

def leave (s : Search g) (f : Frame g) (below : List (Frame g)) : Search g :=
  { s.paint f.name .black with calls := below, path := s.path.dropLast }

def pass (s : Search g) (f : Frame g) (below : List (Frame g)) : Search g :=
  { s with calls := f.advance :: below }

def record (s : Search g) (c : Cycle) : Search g :=
  { s with witnesses := s.witnesses ++ [c] }

def step (s : Search g) : Except SearchFault (Option (Search g)) :=
  match s.calls with
  | [] => .ok none
  | f :: below =>
    match f.rest with
    | [] => if s.path = [] then .error .emptyPath else .ok (some (s.leave f below))
    | next :: _ =>
      match s.colour next with
      | .white => .ok (some ((s.pass f below).enter next))
      | .black => .ok (some (s.pass f below))
      | .grey =>
        match s.path.idxOf? next with
        | none => .error (.notOnPath next)
        | some i => .ok (some ((s.pass f below).record (s.path.drop i)))

def whites (s : Search g) : Nat :=
  g.names.countP (s.colour · = .white)

def pending : List (Frame g) → Nat
  | [] => 0
  | f :: below => f.rest.length + 1 + pending below

theorem whites_le {s t : Search g} (h : ∀ x, t.colour x = .white → s.colour x = .white) :
    t.whites ≤ s.whites := by
  apply List.countP_mono_left
  intro x _ hx
  simpa using h x (by simpa using hx)

theorem whites_enter_lt {s : Search g} {name : String} (hn : name ∈ g.names)
    (hw : s.colour name = .white) : (s.enter name).whites < s.whites := by
  have hc : ∀ x, (s.enter name).colour x = if x = name then .grey else s.colour x :=
    colour_paint s name .grey
  have hf : g.names.filter ((s.enter name).colour · = .white) =
      (g.names.filter (s.colour · = .white)).filter (· ≠ name) := by
    rw [List.filter_filter]
    apply List.filter_congr
    intro x _
    by_cases hx : x = name <;> simp [hc, hx]
  unfold whites
  rw [List.countP_eq_length_filter, List.countP_eq_length_filter, hf]
  exact List.length_filter_lt_length_iff_exists.2
    ⟨name, List.mem_filter.2 ⟨hn, by simpa using hw⟩, by simp⟩

theorem whites_leave_le (s : Search g) (f : Frame g) (below : List (Frame g)) :
    (s.leave f below).whites ≤ s.whites := by
  apply whites_le
  intro x hx
  have hc : (s.leave f below).colour x = if x = f.name then .black else s.colour x :=
    colour_paint s f.name .black x
  rw [hc] at hx
  split at hx
  · cases hx
  · exact hx

theorem pending_pass_lt {s : Search g} {f : Frame g} {below : List (Frame g)} {next : String}
    {rest : List String} (hs : s.calls = f :: below) (hf : f.rest = next :: rest) :
    pending (s.pass f below).calls < pending s.calls := by
  rw [hs]
  simp only [pass, pending, Frame.advance, hf, List.tail_cons, List.length_cons]
  omega

theorem measure_step_lt {s t : Search g} (h : s.step = .ok (some t)) :
    t.whites < s.whites ∨ t.whites ≤ s.whites ∧ pending t.calls < pending s.calls := by
  unfold step at h
  split at h
  · cases h
  · rename_i f below hs
    split at h
    · split at h
      · cases h
      · cases h
        refine .inr ⟨whites_leave_le s f below, ?_⟩
        rw [hs]
        simp only [leave, pending]
        omega
    · rename_i next rest hf
      have hp := pending_pass_lt hs hf
      split at h
      · rename_i hw
        cases h
        have hn : next ∈ g.names :=
          mem_names_of_mem_neighbours (f.rest_subset next (hf ▸ List.mem_cons_self))
        exact .inl (whites_enter_lt (s := s.pass f below) hn hw)
      · cases h
        exact .inr ⟨Nat.le_refl _, hp⟩
      · split at h
        · cases h
        · cases h
          exact .inr ⟨Nat.le_refl _, hp⟩

def run (s : Search g) : Except SearchFault (Search g) :=
  match _h : s.step with
  | .error fault => .error fault
  | .ok none => .ok s
  | .ok (some t) => run t
termination_by (s.whites, pending s.calls)
decreasing_by
  rcases measure_step_lt _h with hw | ⟨hw, hp⟩
  · exact .left _ _ hw
  · rcases Nat.lt_or_eq_of_le hw with hw | hw
    · exact .left _ _ hw
    · rw [hw]
      exact .right _ hp

def start (g : NameGraph) : Search g where
  colours := Assoc.ofPairs (g.nodes.map fun name => (name, .white))

def visit (s : Search g) (node : String) : Except SearchFault (Search g) :=
  if s.colour node = .white then (s.enter node).run else .ok s

end Search

def search (g : NameGraph) : Except SearchFault (Search g) :=
  g.nodes.foldlM Search.visit (Search.start g)

def witnesses (g : NameGraph) : List Cycle :=
  match g.search with
  | .ok s => s.witnesses
  | .error _ => []

end WorkspaceCycles.NameGraph
