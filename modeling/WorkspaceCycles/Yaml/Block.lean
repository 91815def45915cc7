import WorkspaceCycles.Yaml.Quoted

namespace WorkspaceCycles.Yaml

inductive Chomping where
  | strip
  | clip
  | keep
deriving DecidableEq, Repr

def chomping? (c : Char) : Option Chomping :=
  if c == '+' then some .keep else if c == '-' then some .strip else none

def readMarks (s : List Char) : Except Fault (Chomping × Option Nat × List Char) :=
  let digit? (s : List Char) : Option Nat × List Char :=
    match s with
    | c :: rest => if c.isDigit then (some (c.toNat - 48), rest) else (none, s)
    | [] => (none, s)
  let mark? (s : List Char) : Option Chomping × List Char :=
    match s with
    | c :: rest => if (chomping? c).isSome then (chomping? c, rest) else (none, s)
    | [] => (none, s)
  let (chomping, increment, rest) : Option Chomping × Option Nat × List Char :=
    match mark? s with
    | (some m, rest) => (some m, digit? rest)
    | (none, _) =>
      match digit? s with
      | (some d, rest) => ((mark? rest).1, some d, (mark? rest).2)
      | (none, rest) => (none, none, rest)
  if increment = some 0 || !endsAt [' '] rest then .error .malformed
  else .ok (chomping.getD .clip, increment, rest)

def restOfLine (s : List Char) : Except Fault (List Char) :=
  let rest := s.dropWhile isSpace
  let rest := if rest.head? = some '#' then rest.dropWhile notBreak else rest
  match rest with
  | [] => .ok []
  | c :: more => if isBreak c then .ok more else .error .malformed

structure LineStart where
  breaks : List Char
  column : Nat
  rest : List Char

def leadingLines (column greatest : Nat) : List Char → LineStart × Nat
  | [] => (⟨[], column, []⟩, greatest)
  | c :: rest =>
    if c = ' ' then leadingLines (column + 1) (max greatest (column + 1)) rest
    else if isBreak c then
      let r := leadingLines 0 greatest rest
      ({ r.1 with breaks := breakChar c :: r.1.breaks }, r.2)
    else (⟨[], column, c :: rest⟩, greatest)

def emptyLines (indent column : Nat) : List Char → LineStart
  | [] => ⟨[], column, []⟩
  | c :: rest =>
    if c = ' ' && column < indent then emptyLines indent (column + 1) rest
    else if isBreak c then
      let r := emptyLines indent 0 rest
      { r with breaks := breakChar c :: r.breaks }
    else ⟨[], column, c :: rest⟩

structure BlockEnd where
  text : List Char
  last : List Char
  breaks : List Char
  rest : List Char

def blockLines (folded : Bool) (indent : Nat) (start : LineStart) (last : List Char) : BlockEnd :=
  if start.column = indent && !start.rest.isEmpty then
    let line := start.rest.takeWhile notBreak
    let behind := start.rest.dropWhile notBreak
    let lineEnd := behind.head?.toList.map breakChar
    let next := emptyLines indent 0 behind.tail
    let next : LineStart := if behind.isEmpty then ⟨[], indent + line.length, []⟩ else next
    let text := start.breaks ++ line
    if next.column = indent && !next.rest.isEmpty then
      let joined :=
        if folded && lineEnd = ['\n'] && !start.rest.head?.any isBlank &&
            !next.rest.head?.any isBlank then
          if next.breaks.isEmpty then [' '] else []
        else lineEnd
      if _h : next.rest.length < start.rest.length then
        let r := blockLines folded indent next lineEnd
        { r with text := text ++ joined ++ r.text }
      else ⟨text, lineEnd, next.breaks, next.rest⟩
    else ⟨text, lineEnd, next.breaks, next.rest⟩
  else ⟨[], last, start.breaks, start.rest⟩
termination_by start.rest.length
decreasing_by assumption

def readBlock (folded : Bool) (indent : Int) (s : List Char) :
    Except Fault (String × List Char) := do
  let (chomping, increment, rest) ← readMarks s
  let rest ← restOfLine rest
  let least := max 1 (indent + 1).toNat
  let (indent, start) : Nat × LineStart :=
    match increment with
    | some n => (least + n - 1, emptyLines (least + n - 1) 0 rest)
    | none =>
      let (start, greatest) := leadingLines 0 0 rest
      (max least greatest, start)
  let e := blockLines folded indent start []
  let text := match chomping with
    | .strip => e.text
    | .clip => e.text ++ e.last
    | .keep => e.text ++ e.last ++ e.breaks
  return (String.ofList text, e.rest)

end WorkspaceCycles.Yaml
