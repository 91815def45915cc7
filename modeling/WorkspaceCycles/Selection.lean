import WorkspaceCycles.Cycle
import WorkspaceCycles.Glob
import WorkspaceCycles.Package
import WorkspaceCycles.Settings

namespace WorkspaceCycles

namespace CircularSettings

/-- Given patterns take the place of the lists in the settings. Otherwise the packages on the
include list are taken, all if it is empty, without those on the exclude list. -/
def selects (s : CircularSettings) (given : List String) (name : String) : Bool :=
  if !given.isEmpty then Glob.matchesAny given name
  else
    (s.includePackages.isEmpty || Glob.matchesAny s.includePackages name) &&
      !Glob.matchesAny s.excludePackages name

end CircularSettings

namespace IgnoreRule

def inScope (r : IgnoreRule) (package : Option String) : Bool :=
  match r.package, package with
  | some pattern, some name => pattern.isEmpty || name.isEmpty || Glob.isMatch pattern name
  | _, _ => true

def covers (r : IgnoreRule) (package : Option String) (cycle : Cycle) : Bool :=
  r.inScope package && cycle.any (Glob.isMatch r.pattern)

end IgnoreRule

namespace Cycle

def isIgnored (cycle : Cycle) (package : Option String) (rules : List IgnoreRule) : Bool :=
  rules.any (·.covers package cycle)

def isIgnoredBySets (cycle : Cycle) (sets : List (List String)) : Bool :=
  sets.any fun members => members.all (· ∈ cycle)

end Cycle

end WorkspaceCycles
