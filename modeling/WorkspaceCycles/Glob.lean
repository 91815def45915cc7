/-!
Glob patterns. `*` stands for any characters, `?` for one, `[...]` for one of a class; every other
character stands for itself. A pattern matches whole texts, and a slash is a character like any
other.
-/

namespace WorkspaceCycles

structure CharRange where
  first : Char
  last : Char
deriving DecidableEq, Repr

namespace CharRange

def single (c : Char) : CharRange := ⟨c, c⟩

def contains (r : CharRange) (c : Char) : Bool :=
  r.first ≤ c && c ≤ r.last

end CharRange

namespace Glob

inductive Piece where
  | literal (c : Char)
  | anyChar
  | anyRun
  | oneOf (negated : Bool) (ranges : List CharRange)
deriving DecidableEq, Repr

def ranges : List Char → List CharRange
  | x :: '-' :: y :: rest => ⟨x, y⟩ :: ranges rest
  | x :: rest => .single x :: ranges rest
  | [] => []

/-- A leading mark of negation that shows only once the empty ranges before it are gone. -/
def lateNegation : List CharRange → Option (List CharRange)
  | ⟨'!', '!'⟩ :: rest => some rest
  | ⟨'!', y⟩ :: rest => some (.single '-' :: .single y :: rest)
  | _ => none

/-- What stands between the brackets. A range from a later character to an earlier one is empty
and dropped; a class that is left without ranges then stands for no character. -/
def classPiece (body : List Char) : Piece :=
  match body with
  | '!' :: rest => .oneOf true ((ranges rest).filter fun r => r.first ≤ r.last)
  | _ =>
    let kept := (ranges body).filter fun r => r.first ≤ r.last
    match lateNegation kept with
    | some rest => .oneOf true rest
    | none => .oneOf false kept

def splitClass? (s : List Char) : Option (List Char × List Char) :=
  let head :=
    match s with
    | '!' :: ']' :: _ => 2
    | '!' :: _ => 1
    | ']' :: _ => 1
    | _ => 0
  let tail := (s.drop head).dropWhile (· != ']')
  match tail with
  | [] => none
  | _ :: rest => some (s.take head ++ (s.drop head).takeWhile (· != ']'), rest)

theorem length_splitClass?_lt {s body rest : List Char} (h : splitClass? s = some (body, rest)) :
    rest.length < s.length := by
  unfold splitClass? at h
  generalize (match s with | '!' :: ']' :: _ => 2 | '!' :: _ => 1 | ']' :: _ => 1 | _ => 0) = head at h
  simp only at h
  have hle := (List.dropWhile_sublist (l := s.drop head) (· != ']')).length_le
  split at h
  · simp at h
  · rename_i heq
    simp only [Option.some.injEq, Prod.mk.injEq] at h
    rw [heq, List.length_cons, List.length_drop] at hle
    rw [← h.2]
    omega

def parse : List Char → List Piece
  | [] => []
  | '*' :: rest => .anyRun :: parse rest
  | '?' :: rest => .anyChar :: parse rest
  | '[' :: rest =>
    match h : splitClass? rest with
    | some (body, rest') =>
      have := length_splitClass?_lt h
      classPiece body :: parse rest'
    | none => .literal '[' :: parse rest
  | c :: rest => .literal c :: parse rest
termination_by s => s.length

def Piece.accepts : Piece → Char → Bool
  | .literal a, c => a = c
  | .anyChar, _ => true
  | .anyRun, _ => false
  | .oneOf negated ranges, c => ranges.any (·.contains c) != negated

def anyFrom (answers : List Bool) : List Bool :=
  answers.foldr (fun b later => (b || later.headD false) :: later) []

def answers : List Piece → List Char → List Bool
  | [], s => s.map (fun _ => false) ++ [true]
  | .anyRun :: ps, s => anyFrom (answers ps s)
  | p :: ps, s => List.zipWith (fun c b => p.accepts c && b) s (answers ps s).tail ++ [false]

def matchesPieces (ps : List Piece) (s : List Char) : Bool :=
  (answers ps s).headD false

theorem length_anyFrom (bs : List Bool) : (anyFrom bs).length = bs.length := by
  induction bs with
  | nil => rfl
  | cons b bs ih => simp only [anyFrom, List.foldr_cons, List.length_cons] at *; rw [ih]

theorem length_answers (ps : List Piece) (s : List Char) :
    (answers ps s).length = s.length + 1 := by
  fun_induction answers ps s with
  | case1 => simp
  | case2 => simp_all [length_anyFrom]
  | case3 => simp_all [List.length_zipWith]

def isMatch (pattern text : String) : Bool :=
  matchesPieces (parse pattern.toList) text.toList

def matchesAny (patterns : List String) (text : String) : Bool :=
  patterns.any (isMatch · text)

end Glob

end WorkspaceCycles
