import WorkspaceCycles.Text.Blank

namespace WorkspaceCycles.Source

def afterClose? : List Char → Option (List Char)
  | [] => none
  | '*' :: '/' :: rest => some rest
  | _ :: rest => afterClose? rest

theorem length_afterClose?_lt {s rest : List Char} (h : afterClose? s = some rest) :
    rest.length < s.length := by
  fun_induction afterClose? s with
  | case1 => simp at h
  | case2 r =>
    simp only [Option.some.injEq] at h
    subst h
    simp only [List.length_cons]
    omega
  | case3 c r _ ih =>
    have := ih h
    simp only [List.length_cons]
    omega

def dropBlockComments (s : List Char) : List Char :=
  match s with
  | [] => []
  | '/' :: '*' :: rest =>
    match h : afterClose? rest with
    | some more =>
      have := length_afterClose?_lt h
      dropBlockComments more
    | none => '/' :: '*' :: rest
  | c :: rest => c :: dropBlockComments rest
termination_by s.length

def startsLineComment : List Char → Bool
  | '/' :: '/' :: _ => true
  | _ => false

def notNewline (c : Char) : Bool :=
  c != '\n'

def splitLine (s : List Char) : List Char × Option (List Char) :=
  (s.takeWhile notNewline,
    (s.dropWhile notNewline).head?.map fun _ => (s.dropWhile notNewline).tail)

theorem length_splitLine_lt {s rest : List Char} (h : (splitLine s).2 = some rest) :
    rest.length < s.length := by
  have hle := (List.dropWhile_sublist (l := s) notNewline).length_le
  simp only [splitLine] at h
  cases hd : s.dropWhile notNewline with
  | nil => simp [hd] at h
  | cons c r =>
    simp only [hd, List.head?_cons, Option.map_some, List.tail_cons, Option.some.injEq] at h
    rw [hd, List.length_cons, h] at hle
    omega

def dropLineComments (s : List Char) : List Char :=
  let blanks := s.takeWhile Text.isBlank
  let rest := s.dropWhile Text.isBlank
  let line := splitLine rest
  (if startsLineComment rest then [] else blanks ++ line.1) ++
    match h : line.2 with
    | some more =>
      have : more.length < s.length :=
        Nat.lt_of_lt_of_le (length_splitLine_lt h) (List.dropWhile_sublist _).length_le
      '\n' :: dropLineComments more
    | none => []
termination_by s.length

theorem dropLineComments_eq (s : List Char) : dropLineComments s =
    (if startsLineComment (s.dropWhile Text.isBlank) then []
      else s.takeWhile Text.isBlank ++ (splitLine (s.dropWhile Text.isBlank)).1) ++
    (splitLine (s.dropWhile Text.isBlank)).2.elim [] ('\n' :: dropLineComments ·) := by
  rw [dropLineComments]
  congr 1
  split <;> rename_i hl <;> simp only [hl, Option.elim]

def dropComments (s : List Char) : List Char :=
  dropLineComments (dropBlockComments s)

end WorkspaceCycles.Source
