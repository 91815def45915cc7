namespace WorkspaceCycles

/-- Each member leads to the next and the last one to the first. -/
abbrev Cycle := List String

namespace Cycle

def least? : Cycle → Option String
  | [] => none
  | a :: c => some (c.foldl (fun m b => if b < m then b else m) a)

def rotateToLeast (c : Cycle) : Cycle :=
  match least? c with
  | none => []
  | some m => c.dropWhile (· != m) ++ c.takeWhile (· != m)

def chain (c : Cycle) : String :=
  " -> ".intercalate c

def key (c : Cycle) : String :=
  chain (rotateToLeast c)

def distinctFrom (seen : List String) : List Cycle → List Cycle
  | [] => []
  | c :: cs =>
    if key c ∈ seen then distinctFrom seen cs
    else c :: distinctFrom (key c :: seen) cs

def distinct (cs : List Cycle) : List Cycle :=
  distinctFrom [] cs

theorem distinctFrom_sublist (seen : List String) (cs : List Cycle) :
    (distinctFrom seen cs).Sublist cs := by
  induction cs generalizing seen with
  | nil => exact .slnil
  | cons c cs ih =>
    simp only [distinctFrom]
    split
    · exact (ih seen).cons c
    · exact (ih _).cons_cons c

theorem distinct_sublist (cs : List Cycle) : (distinct cs).Sublist cs :=
  distinctFrom_sublist [] cs

end Cycle

end WorkspaceCycles
