import WorkspaceCycles.Yaml.Block
import WorkspaceCycles.Yaml.Plain
import WorkspaceCycles.Yaml.Tag

/-!
From a text to its tokens. A key without a mark is known for one only by the colon behind it, so
the places where such a key may begin are kept, one for each level of flow collections; it must
lie in one line and be short. Where a line is indented further than the collection around it, a
block collection is opened, and where it is indented less, collections are closed.
-/

namespace WorkspaceCycles.Yaml

structure KeyPlace where
  count : Nat
  required : Bool
  index : Nat
  line : Nat
  column : Nat
deriving Repr

structure Lexer where
  cursor : Cursor
  tokens : List Token := []
  flow : Nat := 0
  indent : Int := -1
  outerIndents : List Int := []
  allowsKey : Bool := true
  keys : List (Nat × KeyPlace) := []

def maxKeyLength : Nat := 1024

def skipComment (s : List Char) : List Char :=
  let rest := s.dropWhile isSpace
  if rest.head? = some '#' then rest.dropWhile notBreak else rest

theorem length_skipComment_le (s : List Char) : (skipComment s).length ≤ s.length := by
  have hspaces := (List.dropWhile_sublist (l := s) isSpace).length_le
  unfold skipComment
  dsimp only
  split
  · exact Nat.le_trans (List.dropWhile_sublist notBreak).length_le hspaces
  · exact hspaces

theorem length_lt_of_skipComment {s more : List Char} {c : Char}
    (h : skipComment s = c :: more) : more.length < s.length :=
  Nat.lt_of_lt_of_le (by simp) (h ▸ length_skipComment_le s)

def skipBlankSpace (s : List Char) : List Char × Bool :=
  match h : skipComment s with
  | [] => ([], false)
  | c :: more =>
    have := length_lt_of_skipComment h
    if isBreak c then ((skipBlankSpace more).1, true) else (c :: more, false)
termination_by s.length
decreasing_by exact this

namespace Lexer

def moveTo (l : Lexer) (rest : List Char) : Lexer :=
  { l with cursor := l.cursor.moveTo rest }

def push (l : Lexer) (t : Token) : Lexer :=
  { l with tokens := t :: l.tokens }

def inFlow (l : Lexer) : Bool :=
  l.flow != 0

def insert (l : Lexer) (count : Nat) (t : Token) : Lexer :=
  let behind := l.tokens.length - count
  { l with tokens := l.tokens.take behind ++ t :: l.tokens.drop behind }

def isStale (l : Lexer) (k : KeyPlace) : Bool :=
  k.line != l.cursor.line || maxKeyLength < l.cursor.index - k.index

def dropStaleKeys (l : Lexer) : Except Fault Lexer :=
  if l.keys.any fun k => l.isStale k.2 && k.2.required then .error .malformed
  else .ok { l with keys := l.keys.filter fun k => !l.isStale k.2 }

def dropKey (l : Lexer) : Except Fault Lexer :=
  if l.keys.any fun k => k.1 = l.flow && k.2.required then .error .malformed
  else .ok { l with keys := l.keys.filter fun k => k.1 ≠ l.flow }

def keepKey (l : Lexer) : Except Fault Lexer := do
  if l.allowsKey then
    let l ← l.dropKey
    let key : KeyPlace := {
      count := l.tokens.length
      required := !l.inFlow && l.indent = l.cursor.column
      index := l.cursor.index
      line := l.cursor.line
      column := l.cursor.column }
    return { l with keys := (l.flow, key) :: l.keys }
  else return l

def closeBlocks (l : Lexer) (column : Int) : Lexer :=
  if l.inFlow then l
  else
    let rec close (indent : Int) (outer : List Int) (l : Lexer) : Lexer :=
      if column < indent then
        match outer with
        | [] => { l with indent := -1, outerIndents := [] }.push .blockEnd
        | i :: outer => close i outer (l.push .blockEnd)
      else { l with indent := indent, outerIndents := outer }
    close l.indent l.outerIndents l

def opensBlock (l : Lexer) (column : Nat) : Bool :=
  !l.inFlow && l.indent < column

def openBlock (l : Lexer) (column : Nat) : Lexer :=
  { l with indent := column, outerIndents := l.indent :: l.outerIndents }

def directive (l : Lexer) (rest : List Char) : Except Fault Lexer := do
  let l ← (l.closeBlocks (-1)).dropKey
  let (d, rest) ← readDirective rest
  let rest ← restOfLine rest
  return ({ l with allowsKey := false }.push (.directive d)).moveTo rest

def separator (l : Lexer) (t : Token) : Except Fault Lexer := do
  let l ← (l.closeBlocks (-1)).dropKey
  return ({ l with allowsKey := false }.push t).moveTo (l.cursor.rest.drop 3)

def openFlow (l : Lexer) (t : Token) (rest : List Char) : Except Fault Lexer := do
  let l ← l.keepKey
  return ({ l with flow := l.flow + 1, allowsKey := true }.push t).moveTo rest

def closeFlow (l : Lexer) (t : Token) (rest : List Char) : Except Fault Lexer := do
  let l ← l.dropKey
  if l.inFlow then
    return ({ l with flow := l.flow - 1, allowsKey := false }.push t).moveTo rest
  else throw .malformed

def flowEntry (l : Lexer) (rest : List Char) : Except Fault Lexer := do
  let l ← l.dropKey
  return ({ l with allowsKey := true }.push .flowEntry).moveTo rest

def blockEntry (l : Lexer) (rest : List Char) : Except Fault Lexer := do
  if !l.inFlow && !l.allowsKey then throw .malformed
  let column := l.cursor.column
  let l := if l.opensBlock column then (l.openBlock column).push .blockSequenceStart else l
  let l ← l.dropKey
  return ({ l with allowsKey := true }.push .blockEntry).moveTo rest

def markedKey (l : Lexer) (rest : List Char) : Except Fault Lexer := do
  if !l.inFlow && !l.allowsKey then throw .malformed
  let column := l.cursor.column
  let l := if l.opensBlock column then (l.openBlock column).push .blockMappingStart else l
  let l ← l.dropKey
  return ({ l with allowsKey := !l.inFlow }.push .key).moveTo rest

def value (l : Lexer) (rest : List Char) : Except Fault Lexer := do
  match l.keys.lookup l.flow with
  | some key =>
    let l := { l with keys := l.keys.filter fun k => k.1 ≠ l.flow }
    let l := l.insert key.count .key
    let l :=
      if l.opensBlock key.column then (l.openBlock key.column).insert key.count .blockMappingStart
      else l
    return ({ l with allowsKey := false }.push .value).moveTo rest
  | none =>
    if !l.inFlow && !l.allowsKey then throw .malformed
    let column := l.cursor.column
    let l := if l.opensBlock column then (l.openBlock column).push .blockMappingStart else l
    let l ← l.dropKey
    return ({ l with allowsKey := !l.inFlow }.push .value).moveTo rest

def word (l : Lexer) (read : Except Fault (Token × List Char)) : Except Fault Lexer := do
  let l ← l.keepKey
  let (t, rest) ← read
  return ({ l with allowsKey := false }.push t).moveTo rest

def blockScalar (l : Lexer) (folded : Bool) (rest : List Char) : Except Fault Lexer := do
  let l ← l.dropKey
  let (text, rest) ← readBlock folded l.indent rest
  return ({ l with allowsKey := true }.push (.scalar false text)).moveTo rest

def quotedScalar (l : Lexer) (double : Bool) (rest : List Char) : Except Fault Lexer :=
  l.word ((readQuoted double rest).map fun r => (.scalar false r.1, r.2))

def plainScalar (l : Lexer) : Except Fault Lexer := do
  let l ← l.keepKey
  let (text, rest, newLine) := readPlain l.inFlow (l.indent + 1) l.cursor.rest
  return ({ l with allowsKey := newLine }.push (.scalar true (String.ofList text))).moveTo rest

def indicators : List Char :=
  ['-', '?', ':', ',', '[', ']', '\x7b', '\x7d', '#', '&', '*', '!', '|', '>', '\'', '"', '%', '@',
    '\x60']

def beginsPlain (inFlow : Bool) (c : Char) (rest : List Char) : Bool :=
  (!isBlank c && !isBreak c && !indicators.contains c) ||
    (!endsWord rest && (c == '-' || (!inFlow && (c == '?' || c == ':'))))

def token (l : Lexer) (c : Char) (rest : List Char) : Except Fault Lexer :=
  let s := l.cursor.rest
  let first := l.cursor.column = 0
  if c = '%' ∧ first then l.directive rest
  else if c = '-' ∧ first ∧ isSeparator s then l.separator .documentStart
  else if c = '.' ∧ first ∧ isSeparator s then l.separator .documentEnd
  else if c = '[' then l.openFlow .flowSequenceStart rest
  else if c = '\x7b' then l.openFlow .flowMappingStart rest
  else if c = ']' then l.closeFlow .flowSequenceEnd rest
  else if c = '\x7d' then l.closeFlow .flowMappingEnd rest
  else if c = ',' then l.flowEntry rest
  else if c = '-' ∧ endsWord rest then l.blockEntry rest
  else if c = '?' ∧ (l.inFlow ∨ endsWord rest) then l.markedKey rest
  else if c = ':' ∧ (l.inFlow ∨ endsWord rest) then l.value rest
  else if c = '*' then l.word ((readAnchor rest).map fun r => (.alias r.1, r.2))
  else if c = '&' then l.word ((readAnchor rest).map fun r => (.anchor r.1, r.2))
  else if c = '!' then l.word ((readTag s).map fun r => (.tag r.1, r.2))
  else if c = '|' ∧ !l.inFlow then l.blockScalar false rest
  else if c = '>' ∧ !l.inFlow then l.blockScalar true rest
  else if c = '\'' then l.quotedScalar false rest
  else if c = '"' then l.quotedScalar true rest
  else if beginsPlain l.inFlow c rest then l.plainScalar
  else .error .malformed

def dropByteOrderMark (c : Cursor) : List Char :=
  match c.rest with
  | '\ufeff' :: rest => if c.index = 0 then rest else c.rest
  | rest => rest

def advance (l : Lexer) : Except Fault Lexer := do
  let (rest, newLine) := skipBlankSpace (dropByteOrderMark l.cursor)
  let l := l.moveTo rest
  let l := { l with allowsKey := l.allowsKey || (newLine && !l.inFlow) }
  let l ← l.dropStaleKeys
  return l.closeBlocks l.cursor.column

def settled (l : Lexer) : List Token :=
  let pending := l.keys.filter fun k => !l.isStale k.2
  l.tokens.reverse.take ((pending.map (·.2.count)).foldl min l.tokens.length)

/-- All tokens to the end of the text. Each one takes up some of it. What breaks off otherwise than
by being malformed counts only where the tokens before it make the beginning of a document. -/
def run (l : Lexer) : Except Fault (List Token) :=
  match l.advance with
  | .error f => .error f
  | .ok l' =>
    match l'.cursor.rest with
    | [] => do
      let l ← (l'.closeBlocks (-1)).dropKey
      return l.tokens.reverse
    | c :: rest =>
      match l'.token c rest with
      | .error .malformed => .error .malformed
      | .error f => .ok (l.settled ++ [.broken f])
      | .ok next =>
        if next.cursor.rest.length < l.cursor.rest.length then next.run else .error .malformed
termination_by l.cursor.rest.length

end Lexer

def tokens (s : List Char) : Except Fault (List Token) :=
  if s.all isAllowed then Lexer.run { cursor := { rest := s } } else .error .malformed

end WorkspaceCycles.Yaml
