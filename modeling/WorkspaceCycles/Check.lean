import WorkspaceCycles.Check.PackageScan
import WorkspaceCycles.NameGraph.Witness
import WorkspaceCycles.Report
import WorkspaceCycles.Workspace

namespace WorkspaceCycles

namespace Workspace

def cycles (s : CircularSettings) (packages : List Package) : List Cycle × List Cycle :=
  (Cycle.distinct (NameGraph.ofPackages packages).witnesses).partition
    (·.isIgnoredBySets s.ignorePackageCycles)

def scan (s : CircularSettings) (packages : List Package) :
    Except Issue.EmptyCycle (List Issue × Log) := do
  let (ignored, kept) := cycles s packages
  let issues ← kept.mapM (Issue.ofWorkspaceCycle s)
  return (issues, ignored.map fun c => ⟨.debug, .check, "Ignoring package cycle: " ++ c.chain⟩)

end Workspace

inductive CheckFault where
  | workspace (fault : Workspace.Fault)
  | path (fault : PathFault)
  | cycle (fault : Issue.EmptyCycle)

namespace CheckFault

def message : CheckFault → String
  | .workspace fault => fault.message
  | .path fault => fault.message
  | .cycle fault => fault.message

def isReported : CheckFault → Bool
  | .workspace fault => fault.isReported
  | _ => false

end CheckFault

structure Check where
  report : Report
  log : Log := []
  calls : List Call := []

namespace Check

def joined (c d : Check) : Check :=
  ⟨⟨c.report.issues ++ d.report.issues⟩, c.log ++ d.log, c.calls ++ d.calls⟩

def ofPackages (h : Host) (o : CheckOptions) (s : CircularSettings) (packages : List Package) :
    Except CheckFault Check := do
  let targets := packages.filter fun p => s.selects o.packages p.name
  let tools := o.tools s
  let scans ← (targets.mapM (Package.scan h s tools)).mapError .path
  let start : LogLine := ⟨.debug, .check,
    "Scanning " ++ toString targets.length ++ " packages for intra-package cycles with " ++
      ", ".intercalate tools⟩
  return {
    report := ⟨scans.flatMap (·.issues)⟩
    log := start :: TimedLog.merge (scans.map (·.log))
    calls := scans.flatMap (·.calls) }

def ofDependencies (s : CircularSettings) (packages : List Package) : Except CheckFault Check := do
  let (issues, log) ← (Workspace.scan s packages).mapError .cycle
  let start : LogLine :=
    ⟨.debug, .check, "Scanning workspace dependency graph for inter-package cycles"⟩
  return { report := ⟨issues⟩, log := start :: log }

def ofWorkspace (h : Host) (o : CheckOptions) (s : CircularSettings) (w : Workspace) :
    Except CheckFault Check := do
  let imports ←
    if o.runsIntra && s.intraPackage then ofPackages h o s w.packages
    else pure { report := ⟨[]⟩ }
  let dependencies ←
    if o.runsInter && s.interPackage then ofDependencies s w.packages
    else pure { report := ⟨[]⟩ }
  return imports.joined dependencies

def run (h : Host) (o : CheckOptions) (s : CircularSettings) (given : Option Workspace) :
    Except CheckFault Check := do
  if !s.enabled then
    return { report := ⟨[]⟩, log := [⟨.info, .check, "Circular dependency checks disabled"⟩] }
  let (w, log) ←
    match given with
    | some w => pure (w, [])
    | none => (Workspace.discover h.files o.folder).mapError .workspace
  let check ← ofWorkspace h o s w
  return { check with log := log ++ check.log }

end Check

end WorkspaceCycles
