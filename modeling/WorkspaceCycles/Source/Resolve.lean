import WorkspaceCycles.FileTree

namespace WorkspaceCycles.Source

def suffixes : List String := [".ts", ".tsx", ".js", ".jsx"]

def scriptSuffixes : List String := [".js", ".jsx", ".mjs", ".cjs"]

def typedSuffixes : List String := [".ts", ".tsx"]

def candidates (base : Path) : Except PathFault (List Path) :=
  if base.parts = [] then .error (.emptyName base)
  else
    let typed :=
      if base.suffix ∈ scriptSuffixes then
        let stem := base.withSuffix ""
        typedSuffixes.map stem.withSuffix
      else []
    .ok (base :: typed ++ suffixes.map (fun s => base.withName (base.name ++ s)) ++
      suffixes.map fun s => base.child ("index" ++ s))

def isRelative (specifier : String) : Bool :=
  specifier.toList.head? = some '.'

def resolve (t : FileTree) (importer : Path) (specifier : String) (known : List Path) :
    Except PathFault (Option Path) := do
  if isRelative specifier then
    let base ← t.canonical? (importer.parent.join (Path.ofString specifier))
    return (← candidates base).find? (· ∈ known)
  else return none

end WorkspaceCycles.Source
