import WorkspaceCycles.Json.Display
import WorkspaceCycles.Package
import WorkspaceCycles.TextFile

namespace WorkspaceCycles

inductive ManifestFault where
  | text (fault : TextFault)
  | json (fault : Json.Fault) (source : List Char)
  | noName

def ManifestFault.message : ManifestFault → String
  | .text fault => fault.message
  | .json fault source => fault.message source
  | .noName => "package.json has no name"

namespace Package

def manifestName : String := "package.json"

def textFields : Option Json → List (String × String)
  | some (.object fields) => fields.map fun f => (f.1, f.2.display)
  | _ => []

def ofManifest? (folder : Path) (manifest : Json) : Option Package := do
  let name ← (← manifest.get? "name").text?
  let given := (manifest.get? "version").getD .null
  return {
    name, folder
    version := if given.isTruthy then given else .text "0.0.0"
    isPrivate := ((manifest.get? "private").getD .null).isTruthy
    dependencies := textFields (manifest.get? "dependencies")
    devDependencies := textFields (manifest.get? "devDependencies")
    scripts := textFields (manifest.get? "scripts") }

def load (t : FileTree) (folder : Path) : Except ManifestFault Package := do
  let text ← (t.readText (folder.child manifestName)).mapError .text
  let manifest ← (Json.readWithin t.limits.levels text).mapError (.json · text)
  match ofManifest? folder manifest with
  | some p => .ok p
  | none => .error .noName

end Package

end WorkspaceCycles
