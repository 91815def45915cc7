import WorkspaceCycles.Glob
import WorkspaceCycles.NameGraph.Elementary
import WorkspaceCycles.Settings
import WorkspaceCycles.Source.Imports
import WorkspaceCycles.Source.Resolve
import WorkspaceCycles.Text.Newline
import WorkspaceCycles.Text.Utf8

namespace WorkspaceCycles.Source

def skipped : List String := ["node_modules", "__tests__", "*.d.ts", "*.test.*", "*.spec.*"]

def isSource (names : List String) : Bool :=
  let p : Path := ⟨.relative, names⟩
  p.suffix ∈ suffixes && !names.any (Glob.matchesAny skipped)

def walked (t : FileTree) (package : Path) : List (List String) :=
  match t.node (package.child "src") with
  | .ok (.folder es) =>
    ((Node.folder es).descendants.map fun d => "src" :: d.1).mergeSort Text.namesLe
  | _ => []

def files (t : FileTree) (package : Path) : List (List String) :=
  (walked t package).filter fun names =>
    isSource names && !t.isFolder (package.join ⟨.relative, names⟩)

inductive ScanFault where
  | path (fault : PathFault)
  | outOfTime
deriving DecidableEq, Repr

def ScanFault.message : ScanFault → String
  | .path fault => fault.message
  | .outOfTime => "native: scan exceeded its time budget"

def nameOf (root file : Path) : Except PathFault String :=
  match file.below? root with
  | some names => .ok (Path.relativeText names)
  | none => .error (.notBelow file root)

def specifiersAt (t : FileTree) (file : Path) (o : NativeOptions) : List String :=
  match t.read file with
  | .ok bytes =>
    specifiers (Text.unifyNewlines (Text.Utf8.decodeLoosely bytes)) o.skipTypeOnly
      o.skipDynamicImports
  | .error _ => []

def importsOf (t : FileTree) (root : Path) (known : List Path) (o : NativeOptions) (file : Path) :
    Except PathFault (String × List String) := do
  let name ← nameOf root file
  let targets ← (specifiersAt t file o).filterMapM fun specifier => do
    match ← resolve t file specifier known with
    | some target => return some (← nameOf root target)
    | none => return none
  return (name, targets.eraseDups)

def canonicalFiles (t : FileTree) (package : Path) : Except PathFault (Path × List Path) := do
  let root ← t.canonical? package
  let known ← (files t root).mapM fun names => t.canonical? (root.join ⟨.relative, names⟩)
  return (root, known)

def importGraph (t : FileTree) (package : Path) (o : NativeOptions) :
    Except PathFault NameGraph := do
  let (root, known) ← canonicalFiles t package
  let entries ← known.mapM (importsOf t root known o)
  return .ofEntries entries

def unreadable (t : FileTree) (package : Path) (o : NativeOptions) : List (Path × FileFault) :=
  match canonicalFiles t package with
  | .error _ => []
  | .ok (root, known) =>
    (known.takeWhile fun file => (importsOf t root known o file).isOk).filterMap fun file =>
      match t.read file with
      | .ok _ => none
      | .error fault => some (file, fault)

def importCycles (t : FileTree) (package : Path) (o : NativeOptions) (expired : Bool) :
    Except ScanFault (List Cycle) := do
  if expired then
    let root ← (t.canonical? package).mapError .path
    if !(files t root).isEmpty then throw .outOfTime
  let g ← (importGraph t package o).mapError .path
  return g.elementaryCycles o.maxCycleLength.toNat

end WorkspaceCycles.Source
