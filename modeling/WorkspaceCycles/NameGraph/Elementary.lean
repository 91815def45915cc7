import WorkspaceCycles.Cycle
import WorkspaceCycles.NameGraph
import WorkspaceCycles.Text.Order

/-!
Elementary cycles of a graph: the closed paths of at most a given length that meet no name twice.
Each is found once, from its least name on.
-/

namespace WorkspaceCycles.NameGraph

def withPredecessors (g : NameGraph) (start : String) (targets reached : List String) :
    List String :=
  (reached ++ ((g.forward.filter fun e => start < e.1 && e.2.any (· ∈ targets)).map (·.1)).filter
    (· ∉ reached)).eraseDups

def levels (g : NameGraph) (start : String) : Nat → List (List String)
  | 0 => [[]]
  | k + 1 =>
    match levels g start k with
    | [] => []
    | last :: before => g.withPredecessors start (start :: last) last :: last :: before

/-- The ways from a name back to `start` by way of names above it that are not on the path. A way
has at most as many names as there are levels left, the first of which tells from where the rest
of them suffice. -/
def waysBack (g : NameGraph) (start : String) : List (List String) → String → List String →
    List (List String)
  | [], _, _ => []
  | level :: levels, name, path =>
    let next := g.neighbours name
    (if start ∈ next then [[name]] else []) ++
      (next.filter fun n => start < n && n ∉ path && n ∈ level).flatMap fun n =>
        (waysBack g start levels n (n :: path)).map (name :: ·)

def cyclesFrom (g : NameGraph) (bound : Nat) (start : String) : List Cycle :=
  match bound with
  | 0 => []
  | k + 1 => g.waysBack start (g.levels start k) start [start]

/-- Shorter cycles come first; of two with one length the one whose sorted members come first, and
of two with the same members the one that comes first itself. -/
def cycleLe (a b : Cycle) : Bool :=
  let sorted (c : Cycle) : List String := c.mergeSort (decide <| · ≤ ·)
  if a.length ≠ b.length then a.length < b.length
  else if sorted a = sorted b then Text.namesLe a b
  else Text.namesLe (sorted a) (sorted b)

def elementaryCycles (g : NameGraph) (bound : Nat) : List Cycle :=
  let bound := min bound g.nodes.length
  (g.nodes.flatMap (g.cyclesFrom bound)).mergeSort cycleLe

end WorkspaceCycles.NameGraph
