import WorkspaceCycles.Cycle
import WorkspaceCycles.Settings

namespace WorkspaceCycles.Issue

def importFix : String :=
  "Refactor to break the cycle (extract shared code, use lazy imports, or restructure modules)"

def workspaceFix : String :=
  "Restructure packages to break the workspace dependency cycle"

def ofImportCycle (s : CircularSettings) (package : String) (cycle : Cycle) : Issue where
  severity := s.intraPackageSeverity
  kind := .circularImport
  message := "Circular import chain: " ++ cycle.chain
  package := some package
  file := cycle.head?
  fix := some importFix

inductive EmptyCycle where
  | emptyCycle

def EmptyCycle.message : EmptyCycle → String
  | .emptyCycle => "list index out of range"

def ofWorkspaceCycle (s : CircularSettings) (cycle : Cycle) : Except EmptyCycle Issue :=
  match cycle with
  | [] => .error .emptyCycle
  | first :: _ =>
    .ok {
      severity := s.interPackageSeverity
      kind := .circularWorkspaceDependency
      message := "Circular workspace dependency: " ++ Cycle.chain (cycle ++ [first])
      fix := some workspaceFix }

end WorkspaceCycles.Issue
