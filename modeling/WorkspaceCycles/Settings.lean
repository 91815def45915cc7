import WorkspaceCycles.Issue

namespace WorkspaceCycles

inductive Tool where
  | dpdm
  | madge
  | native
deriving DecidableEq, Repr

namespace Tool

def all : List Tool := [.dpdm, .madge, .native]

def name : Tool → String
  | .dpdm => "dpdm"
  | .madge => "madge"
  | .native => "native"

def named : List (String × Tool) :=
  all.map fun t => (t.name, t)

def ofName? (name : String) : Option Tool :=
  named.lookup name

end Tool

structure IgnoreRule where
  pattern : String
  package : Option String := none
  reason : Option String := none
deriving DecidableEq, Repr

structure DpdmOptions where
  skipDynamicImports : Bool := true
  skipTypeOnly : Bool := true
  tsconfig : Option String := none
deriving DecidableEq, Repr

structure MadgeOptions where
  tsconfig : Option String := none
  fileExtensions : List String := ["ts", "tsx", "js", "jsx"]
deriving DecidableEq, Repr

structure NativeOptions where
  skipDynamicImports : Bool := true
  skipTypeOnly : Bool := true
  maxCycleLength : Int := 10
deriving DecidableEq, Repr

structure CircularSettings where
  enabled : Bool := true
  intraPackage : Bool := true
  interPackage : Bool := true
  intraPackageSeverity : Severity := .high
  interPackageSeverity : Severity := .critical
  tools : List Tool := [.dpdm, .madge]
  ignoreCycles : List IgnoreRule := []
  ignorePackageCycles : List (List String) := []
  includePackages : List String := []
  excludePackages : List String := []
  dpdm : DpdmOptions := {}
  madge : MadgeOptions := {}
  native : NativeOptions := {}
  analyzerTimeout : Float := 120.0

structure Settings where
  version : String := "1.0.0"
  circular : CircularSettings := {}

end WorkspaceCycles
