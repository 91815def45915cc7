import WorkspaceCycles.Yaml.Fault

namespace WorkspaceCycles.Yaml

inductive TagName where
  | verbatim (name : String)
  | shorthand (handle suffix : String)
deriving DecidableEq, Repr

inductive Directive where
  | version (major : Nat)
  | tag (handle lead : String)
  | other
deriving DecidableEq, Repr

inductive Token where
  | directive (d : Directive)
  | documentStart
  | documentEnd
  | blockSequenceStart
  | blockMappingStart
  | blockEnd
  | blockEntry
  | flowSequenceStart
  | flowSequenceEnd
  | flowMappingStart
  | flowMappingEnd
  | flowEntry
  | key
  | value
  | alias (name : String)
  | anchor (name : String)
  | tag (name : TagName)
  | scalar (plain : Bool) (text : String)
  /-- A scalar or directive that is read as far as it goes; nothing follows it. -/
  | broken (fault : Fault)
deriving DecidableEq, Repr

def faultAt : List Token → Fault
  | .broken fault :: _ => fault
  | _ => .malformed

end WorkspaceCycles.Yaml
