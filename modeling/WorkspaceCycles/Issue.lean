import WorkspaceCycles.Json

namespace WorkspaceCycles

inductive Severity where
  | low
  | medium
  | high
  | critical
deriving DecidableEq, Repr

namespace Severity

def all : List Severity := [.low, .medium, .high, .critical]

def text : Severity → String
  | .low => "low"
  | .medium => "medium"
  | .high => "high"
  | .critical => "critical"

def named : List (String × Severity) :=
  all.map fun s => (s.text, s)

end Severity

inductive IssueKind where
  | circularImport
  | circularWorkspaceDependency
deriving DecidableEq, Repr

namespace IssueKind

def all : List IssueKind := [.circularImport, .circularWorkspaceDependency]

def text : IssueKind → String
  | .circularImport => "circular-import"
  | .circularWorkspaceDependency => "circular-workspace-dep"

def named : List (String × IssueKind) :=
  all.map fun k => (k.text, k)

end IssueKind

structure Issue where
  severity : Severity
  kind : IssueKind
  message : String
  package : Option String := none
  file : Option String := none
  fix : Option String := none
deriving DecidableEq, Repr

def Issue.toJson (i : Issue) : Json :=
  let optional (name : String) (value : Option String) : List (String × Json) :=
    (value.map fun s => (name, Json.text s)).toList
  .object ([("severity", .text i.severity.text), ("type", .text i.kind.text),
    ("message", .text i.message)] ++ optional "package" i.package ++ optional "file" i.file ++
    optional "fix" i.fix)

end WorkspaceCycles
