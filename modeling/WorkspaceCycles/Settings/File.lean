import WorkspaceCycles.Log
import WorkspaceCycles.Settings.Reading
import WorkspaceCycles.TextFile
import WorkspaceCycles.Yaml.Document

namespace WorkspaceCycles

inductive SettingsFault where
  | path (fault : PathFault)
  | missing (file : Path)
  | text (fault : TextFault) (file : Path)
  | json (fault : Json.Fault) (file : Path) (source : List Char)
  | yaml (fault : Yaml.Fault) (file : Path)
  | noObject (file : Path)
  | invalid (violations : List Violation)

namespace SettingsFault

def message : SettingsFault → String
  | .path fault => fault.message
  | .missing file => "Config file not found: " ++ file.text
  | .text (.file fault p) file => "Cannot read config file " ++ file.text ++ ": " ++ fault.message p
  | .text fault _ => fault.message
  | .json (.syntaxFault problem left) file source =>
    "Cannot parse config file " ++ file.text ++ ": " ++
      (Json.Fault.syntaxFault problem left).message source
  | .json fault _ source => fault.message source
  | .yaml .malformed file => "Cannot parse config file " ++ file.text ++ ": "
  | .yaml fault _ => fault.message
  | .noObject file => "Config file " ++ file.text ++ " must contain an object"
  | .invalid violations =>
    "Configuration validation failed:\n" ++
      "\n".intercalate (violations.map fun v => "  - " ++ v.placeText ++ ": " ++ v.message)

def isReported : SettingsFault → Bool
  | .path _ => false
  | .text (.undecodable _) _ => false
  | .json (.tooLong _) _ _ => false
  | .json (.tooDeep _) _ _ => false
  | .yaml fault _ => fault = .malformed
  | _ => true

end SettingsFault

namespace Settings

def fileNames : List String :=
  ["monorepo.config.json", ".monoreporc", ".monoreporc.json", "monorepo.config.yaml",
    "monorepo.config.yml"]

def findFile (t : FileTree) (root : Path) : Except PathFault (Option Path) :=
  (fileNames.map root.child).findM? t.isFile?

def readDocument (limits : Limits) (file : Path) (source : List Char) :
    Except SettingsFault Value :=
  if file.suffix = ".yaml" ∨ file.suffix = ".yml" then
    (Yaml.readWithin limits.isTooNested source).mapError (.yaml · file)
  else if Text.trim source = [] then .ok .null
  else
    match Json.readWithin limits.levels source with
    | .ok v => .ok (.ofJson v)
    | .error fault => .error (.json fault file source)

def ofDocument (file : Path) (v : Value) : Except SettingsFault Settings :=
  let fields? : Option (List (String × Value)) :=
    match v with
    | .null => some []
    | .record fields => some fields
    | _ => none
  match fields? with
  | none => .error (.noObject file)
  | some fields =>
    match rule (.record fields) with
    | .valid s => .ok s
    | .invalid violations => .error (.invalid violations)

def ofFile (t : FileTree) (file : Path) : Except SettingsFault Settings := do
  let source ← (t.readText file).mapError (.text · file)
  ofDocument file (← readDocument t.limits file source)

def load (t : FileTree) (root : Path) (given : Option Path) :
    Except SettingsFault (Settings × Log) := do
  match given with
  | some p =>
    let file := root.join p
    if ← (t.isFile? file).mapError .path then return (← ofFile t file, [])
    else throw (.missing file)
  | none =>
    match ← (findFile t root).mapError .path with
    | some file => return (← ofFile t file, [])
    | none =>
      return ({}, [⟨.debug, .settings, "No config file under " ++ root.text ++ ", using defaults"⟩])

end Settings

end WorkspaceCycles
