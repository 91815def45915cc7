namespace WorkspaceCycles.Yaml

def isAllowed (c : Char) : Bool :=
  let n := c.toNat
  n == 9 || n == 10 || n == 13 || (0x20 ≤ n && n ≤ 0x7e) || n == 0x85 ||
    (0xa0 ≤ n && n ≤ 0xd7ff) || (0xe000 ≤ n && n ≤ 0xfffd) || 0x10000 ≤ n

def isBreak (c : Char) : Bool :=
  c == '\n' || c == '\x85' || c == '\u2028' || c == '\u2029'

def notBreak (c : Char) : Bool := !isBreak c

def isBlank (c : Char) : Bool := c == ' ' || c == '\t'

def isSpace (c : Char) : Bool := c == ' '

def breakChar (c : Char) : Char :=
  if c == '\x85' then '\n' else c

def endsAt (others : List Char) (s : List Char) : Bool :=
  match s with
  | [] => true
  | c :: _ => isBreak c || others.contains c

def endsWord (s : List Char) : Bool :=
  endsAt [' ', '\t'] s

def isNameChar (c : Char) : Bool :=
  c.isAlphanum || c == '-' || c == '_'

def after? (c : Char) (s : List Char) : Option (List Char) :=
  match s with
  | d :: rest => if d = c then some rest else none
  | [] => none

def startsWith (lead s : List Char) : Bool :=
  lead.isPrefixOf s

def isSeparator (s : List Char) : Bool :=
  (startsWith ['-', '-', '-'] s || startsWith ['.', '.', '.'] s) && endsWord (s.drop 3)

def withoutLastBreak (s : List Char) : List Char :=
  if s.getLast? = some '\n' ∧ s ≠ ['\n'] then s.dropLast else s

structure Cursor where
  rest : List Char
  index : Nat := 0
  line : Nat := 0
  column : Nat := 0
deriving Repr

def Cursor.pass (p : Cursor) (c : Char) : Cursor :=
  if isBreak c then { p with index := p.index + 1, line := p.line + 1, column := 0 }
  else
    { p with
      index := p.index + 1
      column := if c == '\ufeff' then p.column else p.column + 1 }

def Cursor.moveTo (p : Cursor) (rest : List Char) : Cursor :=
  (p.rest.take (p.rest.length - rest.length)).foldl Cursor.pass { p with rest }

end WorkspaceCycles.Yaml
