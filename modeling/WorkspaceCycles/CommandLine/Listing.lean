import WorkspaceCycles.Report
import WorkspaceCycles.Text.Style

namespace WorkspaceCycles

open Text

namespace Severity

def style : Severity → Style
  | .critical => .red
  | .high => .red
  | .medium => .yellow
  | .low => .white

def marker : Severity → String
  | .critical => "✗"
  | .high => "✗"
  | .medium => "⚠"
  | .low => "⚠"

end Severity

namespace Issue

def scope (i : Issue) : String :=
  match i.package with
  | none => ""
  | some name => if name.isEmpty then "" else name ++ ": "

def listing (i : Issue) : List String :=
  ("  " ++ i.severity.marker ++ " " ++ i.severity.style.apply ("[" ++ i.severity.text ++ "]") ++
    " " ++ i.scope ++ i.message) ::
  match i.fix with
  | none => []
  | some fix => if fix.isEmpty then [] else [Style.dim.apply ("    Fix: " ++ fix)]

end Issue

namespace Report

def summary (r : Report) : String :=
  "Summary: " ++ toString r.total ++ " total (" ++
    ", ".intercalate ([Severity.critical, .high, .medium, .low].map fun s =>
      toString (r.count s) ++ " " ++ s.text) ++ ")"

def listing (r : Report) : List String :=
  if r.passed then [Style.green.apply "No circular dependencies found!"]
  else
    Style.yellow.apply
        ("Found " ++ toString r.total ++ " circular dependency issue(s)\n") ::
      r.issues.flatMap Issue.listing ++ ["\n" ++ r.summary]

end Report

end WorkspaceCycles
