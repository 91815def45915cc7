import WorkspaceCycles.Json
import WorkspaceCycles.NameGraph
import WorkspaceCycles.Path

namespace WorkspaceCycles

structure Package where
  name : String
  folder : Path
  version : Json := .text "0.0.0"
  isPrivate : Bool := false
  dependencies : List (String × String) := []
  devDependencies : List (String × String) := []
  scripts : List (String × String) := []

namespace Package

def workspaceProtocol : String := "workspace:"

def specifiers (p : Package) : List (String × String) :=
  Assoc.extend (Assoc.ofPairs p.dependencies) p.devDependencies

def isWorkspaceSpecifier (s : String) : Bool :=
  workspaceProtocol.toList.isPrefixOf s.toList

def workspaceDependencies (p : Package) : List String :=
  (p.specifiers.filter fun d => isWorkspaceSpecifier d.2).map (·.1)

end Package

def NameGraph.ofPackages (packages : List Package) : NameGraph :=
  let nodes := (packages.map (·.name)).eraseDups
  { nodes
    forward := nodes.map fun name =>
      (name, ((packages.filter (·.name == name)).flatMap fun p =>
        p.workspaceDependencies.filter (· ∈ nodes)).eraseDups) }

end WorkspaceCycles
