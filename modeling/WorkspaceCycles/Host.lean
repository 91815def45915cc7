import WorkspaceCycles.FileTree

/-!
The machine a check runs on: its files, where executables are looked for, what the programs of the
tools do when they are started, and how fast it is. An executable is looked for among the installed
packages first, and then in the folders of the search path.
-/

namespace WorkspaceCycles

structure Output where
  exitCode : Option Int := some 0
  stdout : List UInt8 := []
  stderr : List UInt8 := []
  report : Option (List UInt8) := none

inductive Execution where
  | notStarted (reason : String)
  | hung (exitCode : Option Int)
  /-- Anything else that goes wrong before the output can be read. -/
  | broken (reason : String)
  | finished (output : Output)

inductive Pace where
  | inTime
  | outOfTime
  | givenUp
  | broken (reason : String)
deriving DecidableEq, Repr

structure Call where
  folder : Path
  arguments : List String
  killed : Bool := false
deriving Repr

structure Host where
  files : FileTree
  /-- Why a path cannot be looked up, if something other than its length is in the way. -/
  refuses : (p : Path) → Option FileFault := fun _ => none
  searchPath : List Path
  execute : (executable folder : Path) → Execution
  pace : (folder : Path) → Pace := fun _ => .inTime
  reportFile : Path

def binFolder : Path := ⟨.relative, ["node_modules", ".bin"]⟩

namespace Host

def refusal? (h : Host) (p : Path) : Option PathFault :=
  if h.files.isRefused p then some (.refused .nameTooLong p) else (h.refuses p).map (.refused · p)

def isExecutable? (h : Host) (p : Path) : Except PathFault Bool :=
  match h.refusal? p with
  | some fault => .error fault
  | none => .ok (h.files.isExecutable p)

def installed (name : String) (start : Path) : List Path :=
  start.selfAndParents.map fun folder => (folder.join binFolder).join (Path.ofString name)

def searched (h : Host) (name : String) : List Path :=
  if name.toList.contains '/' then [] else h.searchPath.map (·.join (Path.ofString name))

def findExecutable (h : Host) (name : String) (start : Path) :
    Except PathFault (Option Path) := do
  let start ← h.files.canonical? start
  match ← (installed name start).findM? h.isExecutable? with
  | some p => return some p
  | none =>
    return (h.searched name).find? fun p => (h.refusal? p).isNone && h.files.isExecutable p

end Host

end WorkspaceCycles
