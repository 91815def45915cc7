import WorkspaceCycles.Check.Options
import WorkspaceCycles.Decimal.Layout
import WorkspaceCycles.Issue.OfCycle
import WorkspaceCycles.Selection
import WorkspaceCycles.Tool.Run

namespace WorkspaceCycles

/-- How far a package is: how often it has waited for a tool in vain, and the steps since. -/
structure Clock where
  timeouts : Nat := 0
  step : Nat := 0
deriving DecidableEq, Repr

namespace Clock

def next (c : Clock) : Clock :=
  { c with step := c.step + 1 }

def afterTimeout (c : Clock) : Clock :=
  ⟨c.timeouts + 1, 0⟩

def le (c d : Clock) : Bool :=
  c.timeouts < d.timeouts || (c.timeouts = d.timeouts && c.step ≤ d.step)

end Clock

abbrev TimedLog := List (Clock × LogLine)

def Clock.stamp (c : Clock) (log : Log) : TimedLog :=
  log.map fun l => (c, l)

namespace TimedLog

def merge (logs : List TimedLog) : Log :=
  ((logs.flatten).mergeSort fun a b => Clock.le a.1 b.1).map (·.2)

end TimedLog

structure ToolRuns where
  cycles : List Cycle := []
  log : TimedLog := []
  calls : List Call := []
  clock : Clock

namespace Outcome

def found : Outcome → List Cycle
  | .cycles found => found
  | _ => []

def complaint? (o : Outcome) (tool : Tool) (s : CircularSettings) (package : String) :
    Option LogLine :=
  match o with
  | .cycles _ => none
  | .failed fault =>
    some ⟨.warning, .check, tool.name ++ " failed for " ++ package ++ ": " ++ fault.message⟩
  | .unfinished =>
    some ⟨.warning, .check,
      tool.name ++ " timed out after " ++ Decimal.displayBrief s.analyzerTimeout ++ "s for " ++
        package⟩

end Outcome

namespace Package

def unavailable (name package reason : String) : LogLine :=
  ⟨.warning, .check, name ++ " unavailable for " ++ package ++ ": " ++ reason⟩

def runTools (h : Host) (s : CircularSettings) (p : Package) (clock : Clock) :
    List String → Except PathFault ToolRuns
  | [] => .ok { clock }
  | name :: names =>
    let skip (reason : String) := do
      let later ← runTools h s p clock names
      return { later with log := (clock, unavailable name p.name reason) :: later.log }
    match Tool.ofName? name with
    | none => skip (Tool.unknownMessage name)
    | some tool => do
      if ← tool.isInstalled h p.folder then
        let run := tool.run h s p.folder
        let ended :=
          match run.outcome with
          | .unfinished => clock.afterTimeout
          | _ => clock.next.next
        let later ← runTools h s p ended names
        return { later with
          cycles := run.outcome.found ++ later.cycles
          log := clock.next.stamp run.log ++
            ended.stamp (run.outcome.complaint? tool s p.name).toList ++ later.log
          calls := run.calls ++ later.calls }
      else skip tool.missingMessage

structure Scan where
  issues : List Issue
  log : TimedLog
  calls : List Call

def scan (h : Host) (s : CircularSettings) (tools : List String) (p : Package) :
    Except PathFault Scan := do
  let runs ← runTools h s p {} tools
  let (ignored, kept) :=
    (Cycle.distinct runs.cycles).partition (·.isIgnored (some p.name) s.ignoreCycles)
  return {
    issues := kept.map (Issue.ofImportCycle s p.name)
    log := runs.log ++ runs.clock.stamp (ignored.map fun c =>
      ⟨.debug, .check, "Ignoring cycle in " ++ p.name ++ ": " ++ c.chain⟩)
    calls := runs.calls }

end Package

end WorkspaceCycles
