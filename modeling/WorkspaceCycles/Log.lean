namespace WorkspaceCycles

inductive LogLevel where
  | debug
  | info
  | warning
deriving DecidableEq, Repr

def LogLevel.text : LogLevel → String
  | .debug => "DEBUG"
  | .info => "INFO"
  | .warning => "WARNING"

inductive LogSource where
  | settings
  | workspace
  | check
  | processes
  | dpdm
  | madge
  | native
deriving DecidableEq, Repr

def LogSource.text : LogSource → String
  | .settings => "cycle_guard.config"
  | .workspace => "cycle_guard.workspace"
  | .check => "cycle_guard.circular"
  | .processes => "cycle_guard.analyzers.base"
  | .dpdm => "cycle_guard.analyzers.dpdm_analyzer"
  | .madge => "cycle_guard.analyzers.madge_analyzer"
  | .native => "cycle_guard.analyzers.native_analyzer"

structure LogLine where
  level : LogLevel
  source : LogSource
  text : String
deriving DecidableEq, Repr

abbrev Log := List LogLine

def LogLine.line (l : LogLine) : String :=
  l.level.text ++ " " ++ l.source.text ++ ": " ++ l.text

namespace Log

def warnings (log : Log) : List String :=
  (log.filter (·.level = .warning)).map (·.text)

end Log

end WorkspaceCycles
