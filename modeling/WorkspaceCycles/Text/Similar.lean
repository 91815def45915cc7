namespace WorkspaceCycles.Text

def commonLead : List Char → List Char → Nat
  | a :: as, b :: bs => if a = b then commonLead as bs + 1 else 0
  | _, _ => 0

structure SharedRun where
  left : Nat
  right : Nat
  length : Nat

def longestRun (a b : List Char) : SharedRun :=
  let places := (List.range a.length).flatMap fun i => (List.range b.length).map fun j => (i, j)
  places.foldl
    (fun best p =>
      let n := commonLead (a.drop p.1) (b.drop p.2)
      if best.length < n then ⟨p.1, p.2, n⟩ else best)
    ⟨0, 0, 0⟩

def shared (a b : List Char) : Nat :=
  match longestRun a b with
  | ⟨i, j, n⟩ =>
    if _h : 0 < n ∧ i < a.length then
      n + shared (a.take i) (b.take j) + shared (a.drop (i + n)) (b.drop (j + n))
    else 0
termination_by a.length
decreasing_by all_goals simp only [List.length_take, List.length_drop]; omega

def isAlike (a b : List Char) : Bool :=
  3 * (a.length + b.length) ≤ 10 * shared a b

def closest (candidates : List String) (word : String) : List String :=
  let share (c : String) : Nat × Nat :=
    (shared c.toList word.toList, c.toList.length + word.toList.length)
  let before (c d : String) : Bool :=
    let (m, s) := share c
    let (n, t) := share d
    if m * t = n * s then d ≤ c else n * s < m * t
  ((candidates.filter fun c => isAlike c.toList word.toList).mergeSort before).take 3

end WorkspaceCycles.Text
