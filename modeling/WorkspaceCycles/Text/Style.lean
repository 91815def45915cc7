namespace WorkspaceCycles.Text

inductive Style where
  | red
  | green
  | yellow
  | white
  | dim
deriving DecidableEq, Repr

namespace Style

def code : Style → Nat
  | .red => 31
  | .green => 32
  | .yellow => 33
  | .white => 37
  | .dim => 2

def escape (code : Nat) : String :=
  "\x1b[" ++ toString code ++ "m"

def apply (s : Style) (text : String) : String :=
  escape s.code ++ text ++ escape 0

end Style

def escapeLength (s : List Char) : Nat :=
  match s with
  | '\x1b' :: '[' :: rest =>
    let marks := rest.takeWhile fun c => c == ';' || c == '?' || c.isDigit
    match rest.drop marks.length with
    | c :: _ => if c.isAlpha then marks.length + 3 else 0
    | [] => 0
  | _ => 0

def withoutEscapesFrom (skip : Nat) (s : List Char) : List Char :=
  match skip, s with
  | _, [] => []
  | skip + 1, _ :: rest => withoutEscapesFrom skip rest
  | 0, c :: rest =>
    match escapeLength (c :: rest) with
    | 0 => c :: withoutEscapesFrom 0 rest
    | n + 1 => withoutEscapesFrom n rest

def withoutEscapes (s : String) : String :=
  String.ofList (withoutEscapesFrom 0 s.toList)

theorem withoutEscapesFrom_eq_self {s : List Char} (h : '\x1b' ∉ s) :
    withoutEscapesFrom 0 s = s := by
  induction s with
  | nil => rfl
  | cons c rest ih =>
    simp only [List.mem_cons, not_or] at h
    have hlength : escapeLength (c :: rest) = 0 := by
      unfold escapeLength
      split
      · rename_i heq
        exact absurd (List.cons.inj heq).1.symm h.1
      · rfl
    rw [withoutEscapesFrom, hlength, ih h.2]

theorem withoutEscapes_eq_self {s : String} (h : '\x1b' ∉ s.toList) : withoutEscapes s = s := by
  rw [withoutEscapes, withoutEscapesFrom_eq_self h, String.ofList_toList]

end WorkspaceCycles.Text
