import WorkspaceCycles.Cycle.Reading
import WorkspaceCycles.Host
import WorkspaceCycles.Json.Reader
import WorkspaceCycles.Log
import WorkspaceCycles.Settings
import WorkspaceCycles.Source.Scan

namespace WorkspaceCycles

def optionalArgument (option : String) : Option String → List String
  | none => []
  | some value => if value.isEmpty then [] else [option, value]

def DpdmOptions.arguments (o : DpdmOptions) (executable output : String) (entries : List String) :
    List String :=
  [executable, "--no-tree", "--no-warning", "--no-progress", "--circular", "--context", ".",
    "--extensions", ".ts,.tsx,.js,.jsx", "--output", output] ++
  (if o.skipTypeOnly then ["--transform"] else []) ++
  (if o.skipDynamicImports then ["--skip-dynamic-imports", "circular"] else []) ++
  optionalArgument "--tsconfig" o.tsconfig ++ entries

def MadgeOptions.excluded : String :=
  "(\\.d\\.ts$|node_modules|__tests__|\\.test\\.|\\.spec\\.)"

def MadgeOptions.arguments (o : MadgeOptions) (executable : String) : List String :=
  [executable, "--circular", "--json", "--no-spinner", "--extensions",
    ",".intercalate o.fileExtensions, "--exclude", excluded] ++
  optionalArgument "--ts-config" o.tsconfig ++ ["src"]

inductive RunFault where
  | tool (tool : Tool) (reason : String)
  | undecodable (error : Text.Utf8.DecodeError)
  | tooLong (digits : Nat)
  | tooDeep (kind : String)
  | path (fault : PathFault)
  | outOfTime
  | other (reason : String)

def RunFault.message : RunFault → String
  | .tool t reason => t.name ++ ": " ++ reason
  | .undecodable error => error.message
  | .tooLong digits => Json.tooLongMessage digits
  | .tooDeep kind => Json.tooDeepMessage kind
  | .path fault => fault.message
  | .outOfTime => Source.ScanFault.outOfTime.message
  | .other reason => reason

inductive Outcome where
  | cycles (found : List Cycle)
  | failed (fault : RunFault)
  | unfinished

structure Run where
  outcome : Outcome
  log : Log := []
  calls : List Call := []

namespace Tool

def isInstalled (h : Host) (tool : Tool) (folder : Path) : Except PathFault Bool :=
  match tool with
  | .native => .ok true
  | _ => do return (← h.findExecutable tool.name folder).isSome

def missingMessage (tool : Tool) : String :=
  tool.name ++ " is not installed. Run: pnpm add -D " ++ tool.name

def exitCode (o : Output) : Int :=
  o.exitCode.getD (-1)

def withoutOutput (tool : Tool) (o : Output) : Outcome :=
  if exitCode o = 0 then .cycles []
  else
    let said := Text.trim (Text.Utf8.decodeLoosely o.stderr)
    .failed (.tool tool
      (if said.isEmpty then "exited with code " ++ toString (exitCode o) else String.ofList said))

def start (h : Host) (tool : Tool) (folder : Path) (arguments : Path → List String)
    (read : Output → Outcome × Log) : Run :=
  match h.findExecutable tool.name folder with
  | .error fault => { outcome := .failed (.path fault) }
  | .ok none => { outcome := .failed (.tool tool "executable not found") }
  | .ok (some executable) =>
    let args := arguments executable
    let running : LogLine := ⟨.debug, .processes, "Running " ++ " ".intercalate args⟩
    let call : Call := { folder, arguments := args }
    match h.execute executable folder with
    | .notStarted reason =>
      { outcome := .failed (.tool tool ("failed to start: " ++ reason))
        log := [running], calls := [call] }
    | .hung exitCode =>
      { outcome := .unfinished, log := [running]
        calls := [{ call with killed := exitCode.isNone }] }
    | .broken reason =>
      { outcome := .failed (.other reason), log := [running], calls := [call] }
    | .finished output =>
      let (outcome, log) := read output
      { outcome, log := running :: log, calls := [call] }

def readDpdm (levels : Nat) (folder : Path) (o : Output) : Outcome × Log :=
  match o.report with
  | none => (withoutOutput .dpdm o, [])
  | some bytes =>
    match Text.Utf8.decode bytes with
    | .error error => (.failed (.undecodable error), [])
    | .ok text =>
      match Json.readWithin levels (Text.unifyNewlines text) with
      | .ok report => (.cycles (Cycle.allOfJson ((report.get? "circulars").getD .null)), [])
      | .error (.tooLong digits) => (.failed (.tooLong digits), [])
      | .error (.tooDeep kind) => (.failed (.tooDeep kind), [])
      | .error (.syntaxFault _ _) =>
        (.cycles [],
          [⟨.debug, .dpdm, "dpdm produced an unreadable report for " ++ folder.text⟩])

def readMadge (levels : Nat) (folder : Path) (o : Output) : Outcome × Log :=
  let text := Text.Utf8.decodeLoosely o.stdout
  if (Text.trim text).isEmpty then (withoutOutput .madge o, [])
  else
    match Json.readWithin levels text with
    | .ok v => (.cycles ((Cycle.allOfJson v).map fun c => c.map ("src/" ++ ·)), [])
    | .error (.tooLong digits) => (.failed (.tooLong digits), [])
    | .error (.tooDeep kind) => (.failed (.tooDeep kind), [])
    | .error (.syntaxFault _ _) =>
      (.cycles [], [⟨.debug, .madge, "madge produced unparsable output for " ++ folder.text⟩])

def visited (h : Host) (tool : Tool) (folder : Path) : List Path :=
  match tool with
  | .dpdm =>
    folder.child "src" ::
      (Source.walked h.files folder).map fun names => folder.join ⟨.relative, names⟩
  | _ => [folder.child "src"]

def runDpdm (h : Host) (o : DpdmOptions) (folder : Path) : Run :=
  match (visited h .dpdm folder).findSome? h.refusal? with
  | some fault => { outcome := .failed (.path fault) }
  | none =>
    let entries := (Source.files h.files folder).map Path.relativeText
    if entries.isEmpty then { outcome := .cycles [] }
    else
      start h .dpdm folder
        (fun executable => o.arguments executable.text h.reportFile.text entries)
        (readDpdm h.files.limits.levels folder)

def runMadge (h : Host) (o : MadgeOptions) (folder : Path) : Run :=
  match (visited h .madge folder).findSome? h.refusal? with
  | some fault => { outcome := .failed (.path fault) }
  | none =>
    if h.files.isFolder (folder.child "src") then
      start h .madge folder (fun executable => o.arguments executable.text)
        (readMadge h.files.limits.levels folder)
    else { outcome := .cycles [] }

def runNative (h : Host) (o : NativeOptions) (folder : Path) : Run :=
  let log : Log := (Source.unreadable h.files folder o).map fun u =>
    ⟨.debug, .native, "Skipping unreadable file " ++ u.1.text ++ ": " ++ u.2.message u.1⟩
  match h.pace folder with
  | .givenUp => { outcome := .unfinished, log }
  | .broken reason => { outcome := .failed (.other reason), log }
  | pace =>
    match Source.importCycles h.files folder o (pace = .outOfTime) with
    | .ok found => { outcome := .cycles found, log }
    | .error (.path fault) => { outcome := .failed (.path fault), log }
    | .error .outOfTime => { outcome := .failed .outOfTime, log }

def run (h : Host) (s : CircularSettings) (folder : Path) : Tool → Run
  | .dpdm => runDpdm h s.dpdm folder
  | .madge => runMadge h s.madge folder
  | .native => runNative h s.native folder

end Tool

end WorkspaceCycles
