import WorkspaceCycles.Yaml.Lexer
import WorkspaceCycles.Yaml.Node
import WorkspaceCycles.Yaml.Scalar

/-!
YAML documents. A text holds at most one document, whose value is worked out level by level: of
several faults the one nearest to the top counts, and of those on a level the first.

Where a text breaks the grammar is not told. A node that an alias stands for is a copy: nothing that
is done to it in one place, such as merging, shows in another. How deep a text is nested is measured
by the caller of `readWithin`, and case is folded for the letters of ASCII alone.
-/

namespace WorkspaceCycles.Yaml

/-- A value, or the fault that counts with the level it lies on. -/
inductive Built (α : Type) where
  | done (value : α)
  | failed (level : Nat) (fault : Fault)

namespace Built

variable {α β : Type}

def ofExcept (level : Nat) : Except Fault α → Built α
  | .ok a => .done a
  | .error f => .failed level f

def map (f : α → β) : Built α → Built β
  | .done a => .done (f a)
  | .failed level fault => .failed level fault

def both : Built α → Built β → Built (α × β)
  | .done a, .done b => .done (a, b)
  | .done _, .failed level fault => .failed level fault
  | .failed level fault, .done _ => .failed level fault
  | .failed level fault, .failed level' fault' =>
    if level' < level then .failed level' fault' else .failed level fault

def toExcept : Built α → Except Fault α
  | .done a => .ok a
  | .failed _ fault => .error fault

end Built

namespace Node

def isKey : Value → Bool
  | .list _ => false
  | .set _ => false
  | .record _ => false
  | _ => true

def asKey (level : Nat) : Built Value → Built Value
  | .done v => if isKey v then .done v else .failed level .malformed
  | .failed l fault => .failed level (if level < l then .malformed else fault)

def fieldsOf (entries : List (Value × Value)) : List (String × Value) :=
  Assoc.ofPairs (entries.filterMap fun e =>
    match e.1 with
    | .text k => some (k, e.2)
    | _ => none)

def membersOf (entries : List (Value × Value)) : List Value :=
  let add (seen : List Value) (v : Value) : List Value :=
    match v with
    | .text s => if seen.any (fun w => match w with | .text t => t = s | _ => false) then seen
        else seen ++ [v]
    | v => seen ++ [v]
  (entries.map (·.1)).foldl add []

mutual

def value (level : Nat) : Node → Built Value
  | .scalar kind text =>
    if kind.isCollection then .failed (level + 1) .malformed
    else .ofExcept level (scalarValue kind text)
  | .sequence kind items =>
    match kind with
    | .sequence => (values (level + 1) items).map .list
    | .orderedMap => (pairs (level + 1) items).map .list
    | .pairs => (pairs (level + 1) items).map .list
    | .mapping => .failed (level + 1) .malformed
    | .set => .failed (level + 1) .malformed
    | _ => .failed level .malformed
  | .mapping kind merges written entries =>
    match kind with
    | .mapping =>
      if merges then
        (fields (level + 1) entries).map fun es => .record (fieldsOf es)
      else .failed (level + 1) .malformed
    | .set =>
      if merges then (fields (level + 1) entries).map fun es => .set (membersOf es)
      else .failed (level + 1) .malformed
    | .sequence => .failed (level + 1) .malformed
    | .orderedMap => .failed (level + 1) .malformed
    | .pairs => .failed (level + 1) .malformed
    | kind =>
      match (Node.mapping kind merges written entries).scalarText? with
      | some text =>
        if kind = .moment then .failed level .noText
        else .ofExcept level (scalarValue kind text)
      | none => .failed level .malformed
  | .again _ empty => value level empty

def values (level : Nat) : List Node → Built (List Value)
  | [] => .done []
  | n :: ns => ((value level n).both (values level ns)).map fun p => p.1 :: p.2

def key (level : Nat) (k : Node) : Built Value :=
  if k.kind = .default then
    match k.scalarText? with
    | some text => .done (.text text)
    | none => .failed level .malformed
  else asKey level (value level k)

def fields (level : Nat) : List (Node × Node) → Built (List (Value × Value))
  | [] => .done []
  | (k, v) :: es =>
    (((key level k).both (value level v)).both (fields level es)).map fun p => p.1 :: p.2

def pairs (level : Nat) : List Node → Built (List Value)
  | [] => .done []
  | .mapping _ _ [(k, v)] _ :: ns =>
    (((value level k).both (value level v)).both (pairs level ns)).map fun p =>
      .list [p.1.1, p.1.2] :: p.2
  | _ => .failed level .malformed

end

end Node

def readDirectives (version : Option Nat) (handles : Handles) :
    List Token → Except Fault (Handles × List Token)
  | .directive (.version major) :: ts =>
    if version.isSome || major ≠ 1 then .error .malformed
    else readDirectives (some major) handles ts
  | .directive (.tag handle lead) :: ts =>
    if (Assoc.get? handles handle).isSome then .error .malformed
    else readDirectives version (handles ++ [(handle, lead)]) ts
  | .directive .other :: ts => readDirectives version handles ts
  | ts => .ok (handles ++ defaultHandles, ts)

def isDocumentMark : Token → Bool
  | .directive _ => true
  | .documentStart => true
  | .documentEnd => true
  | _ => false

def checkEnd (ts : List Token) : Except Fault Unit :=
  match ts.dropWhile (· = .documentEnd) with
  | [] => .ok ()
  | rest => do
    let (_, rest) ← readDirectives none [] rest
    throw (faultAt rest)

def readContent (handles : Handles) (ts : List Token) : Except Fault (Node × List Token) :=
  (Node.parse handles .block [] ts).map fun r => (r.value, r.rest)

def document (ts : List Token) : Except Fault (Option Node) := do
  match ts with
  | [] => return none
  | t :: _ =>
    let (node, rest) ←
      if t = .documentStart ∨ t matches .directive _ then do
        let (handles, rest) ← readDirectives none [] ts
        match rest with
        | .documentStart :: rest =>
          if rest.head?.all isDocumentMark then pure (.absent, rest) else readContent handles rest
        | rest => throw (faultAt rest)
      else readContent defaultHandles ts
    checkEnd rest
    return some node

def read (s : List Char) : Except Fault Value := do
  match ← document (← tokens s) with
  | none => return .null
  | some node => (node.value 0).toExcept

/-- How much may be nested is for the interpreter to say, of the text as a whole: it depends on
the collections that are open at once and on chains of aliases. -/
def readWithin (isTooNested : List Char → Bool) (s : List Char) : Except Fault Value :=
  if isTooNested s then .error .tooDeep else read s

end WorkspaceCycles.Yaml
