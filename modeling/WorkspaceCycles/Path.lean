import WorkspaceCycles.Text.Split
import WorkspaceCycles.Text.Order
import WorkspaceCycles.Text.Quoted

namespace WorkspaceCycles

inductive Anchor where
  | relative
  | root
  | doubleRoot
deriving DecidableEq, Repr, Inhabited

def Anchor.text : Anchor → String
  | .relative => ""
  | .root => "/"
  | .doubleRoot => "//"

structure Path where
  anchor : Anchor
  parts : List String
deriving DecidableEq, Repr, Inhabited

namespace Path

def top : Path := ⟨.root, []⟩

def names (s : List Char) : List String :=
  ((Text.split '/' s).filter fun piece => piece != [] && piece != ['.']).map String.ofList

def anchorOf : List Char → Anchor
  | '/' :: '/' :: '/' :: _ => .root
  | '/' :: '/' :: _ => .doubleRoot
  | '/' :: _ => .root
  | _ => .relative

def ofString (s : String) : Path :=
  ⟨anchorOf s.toList, names s.toList⟩

def isAbsolute (p : Path) : Bool :=
  p.anchor != .relative

def text (p : Path) : String :=
  if p.anchor = .relative ∧ p.parts = [] then "."
  else p.anchor.text ++ "/".intercalate p.parts

def quoted (p : Path) : String :=
  Text.quoted p.text

def join (p q : Path) : Path :=
  if q.isAbsolute then q else ⟨p.anchor, p.parts ++ q.parts⟩

def child (p : Path) (name : String) : Path :=
  ⟨p.anchor, p.parts ++ [name]⟩

def name (p : Path) : String :=
  p.parts.getLast?.getD ""

def parent (p : Path) : Path :=
  ⟨p.anchor, p.parts.dropLast⟩

def selfAndParents (p : Path) : List Path :=
  (List.range (p.parts.length + 1)).map fun n => ⟨p.anchor, p.parts.take (p.parts.length - n)⟩

def splitSuffix (name : List Char) : List Char × List Char :=
  let tail := (name.reverse.takeWhile (· != '.')).reverse
  let stem := name.take (name.length - tail.length - 1)
  if tail = [] ∨ tail.length = name.length ∨ stem = [] then (name, []) else (stem, '.' :: tail)

def suffix (p : Path) : String :=
  String.ofList (splitSuffix p.name.toList).2

def withName (p : Path) (name : String) : Path :=
  p.parent.child name

def withSuffix (p : Path) (suffix : String) : Path :=
  p.withName (String.ofList (splitSuffix p.name.toList).1 ++ suffix)

def below? (p folder : Path) : Option (List String) :=
  if p.anchor = folder.anchor ∧ folder.parts <+: p.parts then
    some (p.parts.drop folder.parts.length)
  else none

def notBelowMessage (p folder : Path) : String :=
  p.quoted ++ " is not in the subpath of " ++ folder.quoted ++
    " OR one path is relative and the other is absolute."

def relativeText (parts : List String) : String :=
  text ⟨.relative, parts⟩

def le (p q : Path) : Bool :=
  let key (p : Path) := if p.isAbsolute then p.anchor.text :: p.parts else p.parts
  Text.namesLe (key p) (key q)

end Path

end WorkspaceCycles
