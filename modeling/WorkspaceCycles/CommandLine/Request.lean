import WorkspaceCycles.Check.Options
import WorkspaceCycles.CommandLine.Help
import WorkspaceCycles.FileTree

namespace WorkspaceCycles.CommandLine

def helpSwitch : Switch := { name := "--help", help := "Show this message and exit." }
def versionSwitch : Switch := { name := "--version", help := "Show the version and exit." }
def verboseSwitch : Switch :=
  { name := "--verbose", letter := some 'v', help := "Show debug logging" }

def checkSummary : String := "Check the workspace for circular dependencies."

def program : Command where
  words := "cli"
  arguments := "[OPTIONS] COMMAND [ARGS]..."
  summary := "cycle-guard: Detect circular dependencies in a pnpm workspace."
  switches := [versionSwitch, verboseSwitch, helpSwitch]
  commands := [("check", checkSummary)]

def version : String := "cli, version 0.1.0"

def intraSwitch : Switch :=
  { name := "--intra", help := "Only check intra-package (module-level) cycles" }
def interSwitch : Switch :=
  { name := "--inter", help := "Only check inter-package (workspace-level) cycles" }
def allSwitch : Switch := { name := "--all", help := "Run all checks (default)" }
def packagesSwitch : Switch where
  name := "--packages"
  letter := some 'p'
  value := some "TEXT"
  help := "Restrict intra-package scan to packages matching this glob"
def toolSwitch : Switch where
  name := "--tool"
  value := some ("[" ++ "|".intercalate (Tool.all.map Tool.name) ++ "]")
  help := "Use a single analyzer"
def configSwitch : Switch :=
  { name := "--config", value := some "PATH", help := "Config file path" }
def jsonSwitch : Switch := { name := "--json", help := "Output as JSON" }

def check : Command where
  words := "cli check"
  arguments := "[OPTIONS] [CWD]"
  summary := checkSummary
  switches := [intraSwitch, interSwitch, allSwitch, packagesSwitch, toolSwitch, configSwitch,
    jsonSwitch, helpSwitch]

inductive Request where
  | help (command : Command)
  | version
  | check (verbose : Bool) (options : CheckOptions) (settings : Option Path) (asJson : Bool)

inductive UsageFault where
  | noArguments
  | switch (command : Command) (fault : SwitchFault)
  | noCommand
  | unknownCommand (name : String)
  | unknownTool (name : String)
  | noFolder (text : String)
  | isFile (text : String)
  | extraArguments (args : List String)

namespace UsageFault

def command? : UsageFault → Option Command
  | .noArguments => none
  | .switch command (.unknown _ _) => some command
  | .switch _ _ => none
  | .noCommand => some program
  | .unknownCommand _ => some program
  | .unknownTool _ => some check
  | .noFolder _ => some check
  | .isFile _ => some check
  | .extraArguments _ => some check

def message : UsageFault → String
  | .noArguments => program.help
  | .switch _ fault => fault.message
  | .noCommand => "Missing command."
  | .unknownCommand name =>
    "No such command " ++ Text.quoted name ++ "." ++
      suggestion (Text.closest (program.commands.map (·.1)) name)
  | .unknownTool name =>
    "Invalid value for '--tool': " ++ Text.quoted name ++ " is not one of " ++
      ", ".intercalate (Tool.all.map fun t => Text.quoted t.name) ++ "."
  | .noFolder text =>
    "Invalid value for '[CWD]': Directory " ++ Text.quoted text ++ " does not exist."
  | .isFile text => "Invalid value for '[CWD]': Directory " ++ Text.quoted text ++ " is a file."
  | .extraArguments args =>
    "Got unexpected extra argument" ++ (if args.length = 1 then " (" else "s (") ++
      " ".intercalate args ++ ")"

def text (f : UsageFault) : String :=
  match f with
  | .noArguments => f.message ++ "\n"
  | _ =>
    (match f.command? with
      | some c => c.hint ++ "\n"
      | none => "") ++
    "Error: " ++ f.message ++ "\n"

end UsageFault

def asksForFolder (text : String) : Bool :=
  match (Text.split '/' text.toList).reverse with
  | last :: _ :: _ => last = [] || last = ['.']
  | _ => false

def readFolder (t : FileTree) (work : Path) (text : String) : Except UsageFault Path :=
  let p := work.join (Path.ofString text)
  if text.isEmpty then .error (.noFolder text)
  else
    match t.node p with
    | .ok (.folder _) => .ok p
    | .ok _ => .error (if asksForFolder text then .noFolder text else .isFile text)
    | .error _ => .error (.noFolder text)

namespace Request

def ofCheckArguments (t : FileTree) (work : Path) (verbose : Bool) (args : List String) :
    Except UsageFault Request := do
  let a ← (Arguments.read CommandLine.check.switches true args).mapError
    (.switch CommandLine.check)
  if a.has helpSwitch then return .help CommandLine.check
  let tool := a.value? toolSwitch
  if let some name := tool then
    if (Tool.ofName? name).isNone then throw (.unknownTool name)
  let folder ← readFolder t work (a.others.head?.getD ".")
  if !a.others.tail.isEmpty then throw (.extraArguments a.others.tail)
  let options : CheckOptions := {
    folder, tool
    intra := a.has intraSwitch
    inter := a.has interSwitch
    all := a.has allSwitch
    packages := a.values packagesSwitch }
  return .check verbose options ((a.value? configSwitch).map Path.ofString) (a.has jsonSwitch)

def early? (a : Arguments) : Option Request :=
  a.given.findSome? fun g =>
    if g.switch = helpSwitch then some (.help program)
    else if g.switch = versionSwitch then some .version
    else none

def ofArguments (t : FileTree) (work : Path) (args : List String) : Except UsageFault Request := do
  if args.isEmpty then throw .noArguments
  let a ← (Arguments.read program.switches false args).mapError (.switch program)
  if let some r := early? a then return r
  match a.others with
  | [] => throw .noCommand
  | name :: rest =>
    if name = "check" then ofCheckArguments t work (a.has verboseSwitch) rest
    else
      let again ← (Arguments.read program.switches false (name :: rest)).mapError (.switch program)
      match early? again with
      | some r => return r
      | none => throw (.unknownCommand name)

end Request

end WorkspaceCycles.CommandLine
