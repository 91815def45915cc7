import WorkspaceCycles.Yaml.Character
import WorkspaceCycles.Yaml.Fault

namespace WorkspaceCycles.Yaml

inductive Atom where
  | char (c : Char)
  | blank (c : Char)
  | lineEnd (c : Char)
  | joint
deriving DecidableEq, Repr

def foldBreaks (first : Char) (others : List Char) : List Char :=
  (if first != '\n' then [first] else if others.isEmpty then [' '] else []) ++ others

inductive Pending where
  | nothing
  | blanks (bs : List Char)
  | breaks (first : Char) (others : List Char)
  | joined (breaks : List Char)

def Pending.text : Pending → List Char
  | .nothing => []
  | .blanks bs => bs
  | .breaks first others => foldBreaks first others
  | .joined bs => bs

def foldAtoms : Pending → List Atom → List Char
  | p, [] => p.text
  | p, .char c :: atoms => p.text ++ c :: foldAtoms .nothing atoms
  | p, .joint :: atoms => p.text ++ foldAtoms (.joined []) atoms
  | .nothing, .blank c :: atoms => foldAtoms (.blanks [c]) atoms
  | .blanks bs, .blank c :: atoms => foldAtoms (.blanks (bs ++ [c])) atoms
  | .breaks first others, .blank _ :: atoms => foldAtoms (.breaks first others) atoms
  | .joined bs, .blank _ :: atoms => foldAtoms (.joined bs) atoms
  | .breaks first others, .lineEnd c :: atoms => foldAtoms (.breaks first (others ++ [c])) atoms
  | .joined bs, .lineEnd c :: atoms => foldAtoms (.joined (bs ++ [c])) atoms
  | .nothing, .lineEnd c :: atoms => foldAtoms (.breaks c []) atoms
  | .blanks _, .lineEnd c :: atoms => foldAtoms (.breaks c []) atoms

def unescaped (c : Char) : Atom :=
  if isBreak c then .lineEnd (breakChar c) else if isBlank c then .blank c else .char c

def singleQuoted? : List Char → Option (List Atom × List Char)
  | [] => none
  | '\'' :: '\'' :: rest => (singleQuoted? rest).map fun r => (.char '\'' :: r.1, r.2)
  | c :: rest =>
    if c = '\'' then some ([], rest)
    else (singleQuoted? rest).map fun r => (unescaped c :: r.1, r.2)

def simpleEscapes : List (Char × Char) :=
  [('0', '\x00'), ('a', '\x07'), ('b', '\x08'), ('t', '\t'), ('\t', '\t'), ('n', '\n'),
    ('v', '\x0b'), ('f', '\x0c'), ('r', '\r'), ('e', '\x1b'), (' ', ' '), ('"', '"'),
    ('\\', '\\'), ('/', '/'), ('N', '\x85'), ('_', '\xa0'), ('L', '\u2028'), ('P', '\u2029')]

def escapeWidth? (c : Char) : Option Nat :=
  if c = 'x' then some 2 else if c = 'u' then some 4 else if c = 'U' then some 8 else none

def charOf (n : Nat) : Except Fault Char :=
  if 0x110000 ≤ n then .error (.noCharacter n)
  else if Json.isHighSurrogate n || Json.isLowSurrogate n then .ok '\ufffd'
  else .ok (Char.ofNat n)

def doubleQuoted (skip : Nat) (s : List Char) : Except Fault (List Atom × List Char) :=
  match skip, s with
  | _, [] => .error .malformed
  | skip + 1, _ :: rest => doubleQuoted skip rest
  | 0, c :: rest =>
    if c = '"' then .ok ([], rest)
    else if c = '\\' then
      match rest with
      | [] => .error .malformed
      | e :: more =>
        if isBreak e then (doubleQuoted 0 more).map fun r => (.joint :: r.1, r.2)
        else
          match simpleEscapes.lookup e, escapeWidth? e with
          | some ch, _ => (doubleQuoted 0 more).map fun r => (.char ch :: r.1, r.2)
          | none, some width =>
            let digits := (more.take width).filterMap Json.hexValue?
            if digits.length = width then do
              let ch ← charOf (digits.foldl (fun n d => n * 16 + d) 0)
              let r ← doubleQuoted width more
              return (.char ch :: r.1, r.2)
            else .error .malformed
          | none, none => .error .malformed
    else (doubleQuoted 0 rest).map fun r => (unescaped c :: r.1, r.2)
termination_by structural s

def holdsSeparator : List Char → Bool
  | [] => false
  | c :: rest => (isBreak c && isSeparator rest) || holdsSeparator rest

def readQuoted (double : Bool) (s : List Char) : Except Fault (String × List Char) := do
  let (atoms, rest) ←
    if double then doubleQuoted 0 s
    else
      match singleQuoted? s with
      | some r => .ok r
      | none => .error .malformed
  if holdsSeparator (s.take (s.length - rest.length)) then throw .malformed
  return (String.ofList (foldAtoms .nothing atoms), rest)

end WorkspaceCycles.Yaml
