import WorkspaceCycles.Issue
import WorkspaceCycles.Json.Display

namespace WorkspaceCycles

inductive IssueFault where
  | severity (given : Json)
  | kind (given : Json)

def IssueFault.message : IssueFault → String
  | .severity given => given.displayInner ++ " is not a valid Severity"
  | .kind given => given.displayInner ++ " is not a valid IssueType"

def Issue.textField? (v : Json) (name : String) : Option String :=
  (v.get? name).bind Json.text?

def Issue.ofJson (v : Json) : Except IssueFault Issue := do
  let given (name : String) := (v.get? name).getD .null
  let named {α : Type} (options : List (String × α)) (v : Json) : Option α :=
    v.text?.bind fun s => options.lookup s
  let some severity := named Severity.named (given "severity")
    | throw (.severity (given "severity"))
  let some kind := named IssueKind.named (given "type") | throw (.kind (given "type"))
  return {
    severity, kind
    message := (textField? v "message").getD ""
    package := textField? v "package"
    file := textField? v "file"
    fix := textField? v "fix" }

end WorkspaceCycles
