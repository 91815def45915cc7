import WorkspaceCycles.FileTree
import WorkspaceCycles.Glob

namespace WorkspaceCycles

inductive SearchStep where
  | name (name : String)
  | glob (pattern : String)
  | anyFolders
deriving DecidableEq, Repr

inductive PatternFault where
  | mixedStars
  | absolute
  | empty
  | tooDeep
  | refused (p : Path)
deriving DecidableEq, Repr

def PatternFault.message : PatternFault → String
  | .mixedStars => "Invalid pattern: '**' can only be an entire path component"
  | .absolute => "Non-relative patterns are unsupported"
  | .empty => "tuple index out of range"
  | .tooDeep => "maximum recursion depth exceeded"
  | .refused p => FileFault.nameTooLong.message p

namespace SearchStep

def anyFoldersText : String := "**"

def hasTwoStars : List Char → Bool
  | '*' :: '*' :: _ => true
  | _ :: rest => hasTwoStars rest
  | [] => false

def ofPart (part : String) : Except PatternFault SearchStep :=
  if part = anyFoldersText then .ok .anyFolders
  else if hasTwoStars part.toList then .error .mixedStars
  else if part.toList.any fun c => c = '*' ∨ c = '?' ∨ c = '[' then .ok (.glob part)
  else .ok (.name part)

def ofPattern (pattern : String) : Except PatternFault (List SearchStep) :=
  let p := Path.ofString pattern
  if p.isAbsolute then .error .absolute
  else if p.parts = [] then .error .empty
  else p.parts.mapM ofPart

end SearchStep

namespace FileTree

def foldersFrom (t : FileTree) (p : Path) : List Path :=
  match t.node p with
  | .ok n =>
    p :: n.descendants.filterMap fun d =>
      match d.2 with
      | .folder _ => some (p.join ⟨.relative, d.1⟩)
      | _ => none
  | .error _ => []

def search (t : FileTree) : List SearchStep → Path → List Path
  | [], p => [p]
  | .name name :: steps, p =>
    let q := p.child name
    if t.isFolder q ∨ (steps.isEmpty ∧ t.contains q) then t.search steps q else []
  | .glob pattern :: steps, p =>
    let found := ((t.entriesAt p).map (·.1)).filter (Glob.isMatch pattern)
    (found.map p.child).flatMap fun q =>
      if steps.isEmpty ∨ t.isFolder q then t.search steps q else []
  | .anyFolders :: steps, p => ((t.foldersFrom p).flatMap (t.search steps)).eraseDups

def linksAt (t : FileTree) (p : Path) : List Path :=
  ((t.entriesAt p).filter (·.2.isLink)).map fun e => p.child e.1

/-- The first place that a search comes to and cannot look up. Before the last step every link in a
folder is looked up, whatever its name. -/
def stopOf? (t : FileTree) : List SearchStep → Path → Option Path
  | [], _ => none
  | .name name :: steps, p =>
    let q := p.child name
    if t.isRefused q then some q
    else if t.isFolder q then t.stopOf? steps q else none
  | .glob pattern :: steps, p =>
    let found := ((t.entriesAt p).map (·.1)).filter (Glob.isMatch pattern)
    if t.isRefused p then some p
    else
      ((if steps.isEmpty then [] else t.linksAt p).find? t.isRefused).or
        ((found.map p.child).findSome? fun q =>
          if t.isFolder q then t.stopOf? steps q else none)
  | .anyFolders :: steps, p =>
    (p :: t.foldersFrom p).findSome? fun q =>
      if t.isRefused q then some q else t.stopOf? steps q

def find (t : FileTree) (folder : Path) (pattern : String) :
    Except PatternFault (List Path) := do
  if t.limits.isTooDeep (Path.ofString pattern) folder then throw .tooDeep
  let steps ← SearchStep.ofPattern pattern
  match t.stopOf? steps folder with
  | some p => throw (.refused p)
  | none => return t.search steps folder

end FileTree

end WorkspaceCycles
