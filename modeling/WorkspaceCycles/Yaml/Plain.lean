import WorkspaceCycles.Yaml.Quoted

namespace WorkspaceCycles.Yaml

def flowIndicators : List Char := [',', '[', ']', '\x7b', '\x7d']

def plainRun (inFlow : Bool) : List Char → List Char
  | [] => []
  | c :: rest =>
    if isBlank c || isBreak c || (inFlow && (c == '?' || flowIndicators.contains c)) ||
        (c == ':' && (endsWord rest || (inFlow && endsAt flowIndicators rest))) then []
    else c :: plainRun inFlow rest

def plainBreaks? : List Char → Option (List Char × List Char)
  | [] => some ([], [])
  | c :: rest =>
    if c = ' ' then plainBreaks? rest
    else if isBreak c then
      if isSeparator rest then none
      else (plainBreaks? rest).map fun r => (breakChar c :: r.1, r.2)
    else some ([], c :: rest)

structure Gap where
  text : List Char
  rest : List Char
  newLine : Bool

def plainGap (s : List Char) : Gap :=
  let spaces := s.takeWhile isSpace
  let rest := s.dropWhile isSpace
  match rest with
  | c :: more =>
    if isBreak c then
      if isSeparator more then ⟨[], more, true⟩
      else
        match plainBreaks? more with
        | some (others, rest) => ⟨foldBreaks (breakChar c) others, rest, true⟩
        | none => ⟨[], more, true⟩
    else ⟨spaces, rest, false⟩
  | [] => ⟨spaces, [], false⟩

def columnOf (s rest : List Char) : Nat :=
  ((s.take (s.length - rest.length)).reverse.takeWhile isSpace).length

def readPlain (inFlow : Bool) (indent : Int) (s : List Char) : List Char × List Char × Bool :=
  let run := plainRun inFlow s
  let behind := s.drop run.length
  if run = [] || s.head? = some '#' then ([], s, false)
  else
    let gap := plainGap behind
    let ends := gap.text = [] || gap.rest.head? = some '#' ||
      (!inFlow && gap.newLine && columnOf behind gap.rest < indent)
    if ends then (run, gap.rest, gap.newLine)
    else if _h : gap.rest.length < s.length then
      let (more, rest, newLine) := readPlain inFlow indent gap.rest
      if more = [] then (run, gap.rest, gap.newLine)
      else (run ++ gap.text ++ more, rest, newLine)
    else (run, gap.rest, gap.newLine)
termination_by s.length

end WorkspaceCycles.Yaml
