import WorkspaceCycles.FileTree.Search
import WorkspaceCycles.Log
import WorkspaceCycles.Package.Manifest
import WorkspaceCycles.Yaml.Document

/-!
Workspaces: the packages that are kept below one folder, the nearest one upwards that holds a
workspace file. The file holds patterns of folders; those with a leading exclamation mark take
folders away, whatever their place among the others. A folder is a package if it has a manifest.
-/

namespace WorkspaceCycles

structure Workspace where
  root : Path
  packages : List Package

namespace Workspace

def fileName : String := "pnpm-workspace.yaml"

def lockfileName : String := "pnpm-lock.yaml"

def file (w : Workspace) : Path :=
  w.root.child fileName

def lockfile (w : Workspace) : Path :=
  w.root.child lockfileName

inductive RootFault where
  | path (fault : PathFault)
  | notInWorkspace (start : Path)
deriving DecidableEq, Repr

def RootFault.message : RootFault → String
  | .path fault => fault.message
  | .notInWorkspace start =>
    "Not in a pnpm workspace (" ++ fileName ++ " not found above " ++ start.text ++ ")"

def findRoot (t : FileTree) (start : Path) : Except RootFault Path := do
  let start ← (t.canonical? start).mapError .path
  let found ← (start.selfAndParents.findM? fun folder => t.isFile? (folder.child fileName)).mapError
    .path
  match found with
  | some root => .ok root
  | none => .error (.notInWorkspace start)

inductive Fault where
  | root (fault : RootFault)
  | text (fault : TextFault)
  | yaml (fault : Yaml.Fault)
  | noPatterns (kind : String)
  | pattern (fault : PatternFault)
  | path (fault : PathFault)
  | manifest (fault : Json.Fault) (source : List Char)

namespace Fault

def message : Fault → String
  | .root fault => fault.message
  | .text (.file fault p) => "Cannot read " ++ fileName ++ ": " ++ fault.message p
  | .text fault => fault.message
  | .yaml .malformed => "Cannot read " ++ fileName ++ ": "
  | .yaml fault => fault.message
  | .noPatterns kind => Text.quoted kind ++ " object is not iterable"
  | .pattern fault => fault.message
  | .path fault => fault.message
  | .manifest fault source => fault.message source

def isReported : Fault → Bool
  | .root (.notInWorkspace _) => true
  | .text (.file _ _) => true
  | .yaml fault => fault = .malformed
  | _ => false

end Fault

def membersOf : Value → Except Fault (List Value)
  | .text s => .ok (s.toList.map fun c => .text c.toString)
  | .bytes bs => .ok (bs.map fun b => .int b.toNat)
  | .list items => .ok items
  | .set members => .ok members
  | .record fields => .ok (fields.map fun f => .text f.1)
  | .null => .ok []
  | .bool _ => .error (.noPatterns "bool")
  | .int _ => .error (.noPatterns "int")
  | .float _ => .error (.noPatterns "float")
  | .date => .error (.noPatterns "datetime.date")
  | .moment => .error (.noPatterns "datetime.datetime")

def patternsOf (v : Value) : Except Fault (List String) :=
  match v with
  | .record fields => do
    let given := (Assoc.get? fields "packages").getD .null
    let members ← if given.isTruthy then membersOf given else pure []
    return members.filterMap fun m =>
      match m with
      | .text s => some s
      | _ => none
  | _ => .ok []

def patterns (t : FileTree) (root : Path) : Except Fault (List String) := do
  let source ← (t.readText (root.child fileName)).mapError .text
  let document ← (Yaml.readWithin t.limits.isTooNested source).mapError .yaml
  patternsOf document

def withoutSlashes (s : List Char) : String :=
  String.ofList (s.reverse.dropWhile (· == '/')).reverse

def isExclusion (pattern : String) : Bool :=
  pattern.toList.head? = some '!'

def inclusions (patterns : List String) : List String :=
  (patterns.filter (!isExclusion ·)).map fun p => withoutSlashes p.toList

def exclusions (patterns : List String) : List String :=
  (patterns.filter isExclusion).map fun p => withoutSlashes p.toList.tail

def placesOf (t : FileTree) (root : Path) (pattern : String) : Except Fault (List Path) :=
  if pattern = "" ∨ pattern = "." then .ok [root]
  else
    match t.find root pattern with
    | .ok places => .ok (places.mergeSort Path.le)
    | .error fault => .error (.pattern fault)

def isHidden (names : List String) : Bool :=
  names.any fun name => name = "node_modules" ∨ name.toList.head? = some '.'

def isPackageFolder (t : FileTree) (root : Path) (exclusions : List String) (p : Path) : Bool :=
  match p.below? root with
  | none => false
  | some names =>
    t.isFolder p && !isHidden names && !Glob.matchesAny exclusions (Path.relativeText names) &&
      t.isFile (p.child Package.manifestName)

/-- What is looked up at a place to tell whether it is the folder of a package. -/
def lookedUp (t : FileTree) (root : Path) (exclusions : List String) (p : Path) : List Path :=
  match p.below? root with
  | none => [p]
  | some names =>
    if t.isFolder p && !isHidden names && !Glob.matchesAny exclusions (Path.relativeText names) then
      [p, p.child Package.manifestName]
    else [p]

def foldersAlong (t : FileTree) (root : Path) (exclusions : List String) (pattern : String) :
    Except Fault (List Path) := do
  let places ← placesOf t root pattern
  match (places.flatMap (lookedUp t root exclusions)).find? t.isRefused with
  | some p => throw (.path (.refused .nameTooLong p))
  | none => return places.filter (isPackageFolder t root exclusions)

def foldersOf (t : FileTree) (root : Path) (patterns : List String) : Except Fault (List Path) := do
  let folders ← (inclusions patterns).mapM (foldersAlong t root (exclusions patterns))
  return folders.flatten.eraseDups

def packageFolders (t : FileTree) (root : Path) : Except Fault (List Path) := do
  foldersOf t root (← patterns t root)

/-- A package whose manifest is no manifest is told of and passed over, unless its text is nested
too deep, which ends the whole. -/
def loadPackages (t : FileTree) : List Path → Except Fault (List Package × Log)
  | [] => .ok ([], [])
  | folder :: folders =>
    match Package.load t folder with
    | .ok p => (loadPackages t folders).map fun r => (p :: r.1, r.2)
    | .error (.json (.tooDeep kind) source) => .error (.manifest (.tooDeep kind) source)
    | .error fault =>
      (loadPackages t folders).map fun r =>
        (r.1,
          ⟨.warning, .workspace,
            "Failed to load package at " ++ folder.text ++ ": " ++ fault.message⟩ :: r.2)

def discover (t : FileTree) (start : Path) : Except Fault (Workspace × Log) := do
  let root ← (findRoot t start).mapError .root
  let (packages, log) ← loadPackages t (← packageFolders t root)
  return ({ root, packages }, log)

end Workspace

end WorkspaceCycles
