import WorkspaceCycles.Path
import WorkspaceCycles.Settings

namespace WorkspaceCycles

structure CheckOptions where
  folder : Path := ⟨.relative, []⟩
  intra : Bool := false
  inter : Bool := false
  all : Bool := false
  packages : List String := []
  tool : Option String := none

namespace CheckOptions

def runsIntra (o : CheckOptions) : Bool :=
  o.intra || o.all || !(o.intra || o.inter)

def runsInter (o : CheckOptions) : Bool :=
  o.inter || o.all || !(o.intra || o.inter)

def tools (o : CheckOptions) (s : CircularSettings) : List String :=
  match o.tool with
  | none => s.tools.map Tool.name
  | some name => if name.isEmpty then s.tools.map Tool.name else [name]

end CheckOptions

def Tool.unknownMessage (name : String) : String :=
  "unknown analyzer " ++ Text.quoted name

def CircularSettings.optionsOf (s : CircularSettings) :
    Tool → DpdmOptions ⊕ MadgeOptions ⊕ NativeOptions
  | .dpdm => .inl s.dpdm
  | .madge => .inr (.inl s.madge)
  | .native => .inr (.inr s.native)

end WorkspaceCycles
