import WorkspaceCycles.Check
import WorkspaceCycles.CommandLine.Listing
import WorkspaceCycles.CommandLine.Request
import WorkspaceCycles.Json.Writer
import WorkspaceCycles.Settings.File

namespace WorkspaceCycles.CommandLine

inductive Fault where
  | root (fault : Workspace.RootFault)
  | settings (fault : SettingsFault)
  | check (fault : CheckFault)

namespace Fault

def message : Fault → String
  | .root fault => fault.message
  | .settings fault => fault.message
  | .check fault => fault.message

def isReported : Fault → Bool
  | .root (.notInWorkspace _) => true
  | .root (.path _) => false
  | .settings fault => fault.isReported
  | .check fault => fault.isReported

end Fault

structure Ending where
  exitCode : Nat := 0
  stdout : String := ""
  stderr : String := ""
  calls : List Call := []

structure Failure where
  fault : Fault
  log : Log := []

def runCheck (h : Host) (options : CheckOptions) (file : Option Path) : Except Failure Check := do
  let root ← (Workspace.findRoot h.files options.folder).mapError fun f => { fault := .root f }
  let (settings, log) ← (Settings.load h.files root file).mapError fun f => { fault := .settings f }
  let check ← (Check.run h options settings.circular none).mapError fun f =>
    { fault := .check f, log }
  return { check with log := log ++ check.log }

def shownLog (verbose : Bool) (log : Log) : String :=
  String.join ((log.filter fun l => verbose || l.level = .warning).map fun l => l.line ++ "\n")

def reportText (asJson : Bool) (r : Report) : String :=
  if asJson then Json.indented r.toJson else "\n".intercalate r.listing

def failureText (f : Fault) : String :=
  "Error: Failed to check circular dependencies: " ++ f.message ++ "\n"

def run (h : Host) (work : Path) (colours : Bool) (args : List String) : Except Fault Ending :=
  let painted (s : String) : String := if colours then s else Text.withoutEscapes s
  match Request.ofArguments h.files work args with
  | .error f => .ok { exitCode := 2, stderr := painted f.text }
  | .ok (.help command) => .ok { stdout := command.help ++ "\n" }
  | .ok .version => .ok { stdout := version ++ "\n" }
  | .ok (.check verbose options file asJson) =>
    match runCheck h options file with
    | .ok c =>
      .ok {
        exitCode := if c.report.passed then 0 else 1
        stdout := painted (reportText asJson c.report ++ "\n")
        stderr := shownLog verbose c.log
        calls := c.calls }
    | .error { fault, log } =>
      if fault.isReported then
        .ok { exitCode := 1, stderr := shownLog verbose log ++ painted (failureText fault) }
      else .error fault

end WorkspaceCycles.CommandLine
