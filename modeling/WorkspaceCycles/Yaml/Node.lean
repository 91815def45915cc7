import WorkspaceCycles.Assoc
import WorkspaceCycles.Yaml.Kind
import WorkspaceCycles.Yaml.Token

/-!
From tokens to nodes. An alias is replaced by the node of its anchor; inside that node itself,
where this has no end, it is replaced once, and by an empty collection within what replaces it. The
mappings that a mapping merges are put before its own entries.
-/

namespace WorkspaceCycles.Yaml

inductive Node where
  | scalar (kind : Kind) (text : String)
  | sequence (kind : Kind) (items : List Node)
  /-- Whether all that is to be merged are mappings, the entries as they are written, and those
  after merging. -/
  | mapping (kind : Kind) (merges : Bool) (written entries : List (Node × Node))
  /-- The node of an anchor inside that node itself, and an empty one of its form. -/
  | again (anchor : String) (empty : Node)
deriving Inhabited

namespace Node

def absent : Node := .scalar .null ""

def kind : Node → Kind
  | .scalar kind _ => kind
  | .sequence kind _ => kind
  | .mapping kind _ _ _ => kind
  | .again _ empty => empty.kind

def scalarText? : Node → Option String
  | .scalar _ text => some text
  | .sequence _ _ => none
  | .mapping _ _ written _ => ofWritten? written
  | .again _ _ => none
where
  ofWritten? : List (Node × Node) → Option String
  | [] => none
  | (k, v) :: entries => if k.kind = .default then v.scalarText? else ofWritten? entries

def entriesToMerge? : Node → Option (List (Node × Node))
  | .mapping _ true _ entries => some entries
  | .again _ empty => empty.entriesToMerge?
  | _ => none

/-- Of several mappings, a later one goes before an earlier one, whose entries overwrite it. -/
def merged? : Node → Option (List (Node × Node))
  | .sequence _ items => (items.mapM entriesToMerge?).map fun es => es.reverse.flatten
  | n => n.entriesToMerge?

def ofEntries (kind : Kind) (entries : List (Node × Node)) : Node :=
  let (merging, own) := entries.partition fun e => e.1.kind = .merge
  match merging.mapM fun e => e.2.merged? with
  | some others => .mapping kind true entries (others.flatten ++ own)
  | none => .mapping kind false entries own

mutual

def replace (anchor : String) (whole : Node) : Node → Node
  | .scalar kind text => .scalar kind text
  | .sequence kind items => .sequence kind (replaceItems anchor whole items)
  | .mapping kind merges written entries =>
    .mapping kind merges (replaceEntries anchor whole written)
      (replaceEntries anchor whole entries)
  | .again name empty => if name = anchor then whole else .again name empty

def replaceItems (anchor : String) (whole : Node) : List Node → List Node
  | [] => []
  | n :: ns => replace anchor whole n :: replaceItems anchor whole ns

def replaceEntries (anchor : String) (whole : Node) : List (Node × Node) → List (Node × Node)
  | [] => []
  | (k, v) :: es =>
    (replace anchor whole k, replace anchor whole v) :: replaceEntries anchor whole es

end

end Node

abbrev Anchors := List (String × Node)

abbrev Handles := List (String × String)

def defaultHandles : Handles := [("!", "!"), ("!!", "tag:yaml.org,2002:")]

def fullTag (handles : Handles) : TagName → Except Fault String
  | .verbatim name => .ok name
  | .shorthand handle suffix =>
    match Assoc.get? handles handle with
    | some lead => .ok (lead ++ suffix)
    | none => .error .malformed

structure Parsed (α : Type) (bound : Nat) where
  value : α
  anchors : Anchors
  rest : List Token
  shorter : rest.length < bound

abbrev Parse (α : Type) (bound : Nat) := Except Fault (Parsed α bound)

def Parsed.widen {α : Type} {m n : Nat} (p : Parsed α m) (h : m ≤ n) : Parsed α n :=
  ⟨p.value, p.anchors, p.rest, Nat.lt_of_lt_of_le p.shorter h⟩

structure Properties where
  anchor : Option String := none
  tag : Option TagName := none

def splitProperties (ts : List Token) : Properties × List Token :=
  match ts with
  | .anchor a :: .tag t :: rest => (⟨some a, some t⟩, rest)
  | .tag t :: .anchor a :: rest => (⟨some a, some t⟩, rest)
  | .anchor a :: rest => (⟨some a, none⟩, rest)
  | .tag t :: rest => (⟨none, some t⟩, rest)
  | rest => (⟨none, none⟩, rest)

theorem length_splitProperties_le (ts : List Token) :
    (splitProperties ts).2.length ≤ ts.length := by
  unfold splitProperties
  split <;> simp only [List.length_cons] <;> omega

/-- Where a node stands. Block collections are not allowed everywhere, and the entries of a
sequence need not be indented where it is a value of a mapping. -/
inductive Place where
  | flow
  | block
  | entry
deriving DecidableEq

def Place.allowsBlock (p : Place) : Bool := p ≠ .flow

def register (anchor : Option String) (n : Node) (anchors : Anchors) : Anchors :=
  match anchor with
  | some a => Assoc.set anchors a n
  | none => anchors

def opened (anchor : Option String) (empty : Node) (anchors : Anchors) : Anchors :=
  match anchor with
  | some a => Assoc.set anchors a (.again a empty)
  | none => anchors

def closed (anchor : Option String) (n : Node) (anchors : Anchors) : Node × Anchors :=
  match anchor with
  | some a =>
    let whole := n.replace a n
    (whole, Assoc.set (anchors.map fun e => (e.1, Node.replace a whole e.2)) a whole)
  | none => (n, anchors)

def endsBlockItem : Token → Bool
  | .blockEntry => true
  | .blockEnd => true
  | _ => false

def endsIndentlessItem : Token → Bool
  | .blockEntry => true
  | .key => true
  | .value => true
  | .blockEnd => true
  | _ => false

def endsBlockKey : Token → Bool
  | .key => true
  | .value => true
  | .blockEnd => true
  | _ => false

def endsFlowSequenceKey : Token → Bool
  | .value => true
  | .flowEntry => true
  | .flowSequenceEnd => true
  | _ => false

def endsFlowMappingKey : Token → Bool
  | .value => true
  | .flowEntry => true
  | .flowMappingEnd => true
  | _ => false

namespace Node

def tagOf (handles : Handles) (p : Properties) : Except Fault (Option String) := do
  match p.tag with
  | none => return none
  | some t =>
    let tag ← fullTag handles t
    return if tag = "!" then none else some tag

def scalarKind (tag : Option String) (tagged plain : Bool) (text : String) : Kind :=
  match tag with
  | some t => Kind.ofTag t
  | none => if plain || tagged then Kind.ofPlain text else .text

def collectionKind (tag : Option String) (usual : Kind) : Kind :=
  (tag.map Kind.ofTag).getD usual

def afterToken (t : Token) (ts : List Token) : Option (List Token) :=
  match ts with
  | u :: rest => if u = t then some rest else none
  | [] => none

theorem length_afterToken_lt {t : Token} {ts rest : List Token}
    (h : afterToken t ts = some rest) : rest.length < ts.length := by
  unfold afterToken at h
  split at h
  · split at h
    · simp only [Option.some.injEq] at h
      subst h
      simp
    · simp at h
  · simp at h

mutual

def parse (handles : Handles) (place : Place) (anchors : Anchors) (ts : List Token) :
    Parse Node ts.length :=
  match ts with
  | .alias name :: rest =>
    match Assoc.get? anchors name with
    | some n => .ok ⟨n, anchors, rest, by simp⟩
    | none => .error .malformed
  | ts =>
    let p := (splitProperties ts).1
    match tagOf handles p with
    | .error f => .error (if p.anchor.isNone then faultAt (splitProperties ts).2 else f)
    | .ok tag =>
      if p.anchor.any fun a => (Assoc.get? anchors a).isSome then
        .error (faultAt (splitProperties ts).2)
      else
        match hb : (splitProperties ts).2 with
        | .broken fault :: _ => .error fault
        | .scalar plain text :: rest =>
          let n : Node := .scalar (scalarKind tag p.tag.isSome plain text) text
          .ok ⟨n, register p.anchor n anchors, rest, by
            have := length_splitProperties_le ts
            simp only [hb, List.length_cons] at this
            omega⟩
        | t :: rest =>
          have hle : rest.length < ts.length := by
            have := length_splitProperties_le ts
            simp only [hb, List.length_cons] at this
            omega
          if t = .flowSequenceStart then
            let kind := collectionKind tag .sequence
            match flowItems handles true (opened p.anchor (.sequence kind []) anchors) rest with
            | .error f => .error f
            | .ok r =>
              let (n, anchors) := closed p.anchor (.sequence kind r.value) r.anchors
              .ok ⟨n, anchors, r.rest, Nat.lt_trans r.shorter hle⟩
          else if t = .flowMappingStart then
            let kind := collectionKind tag .mapping
            let anchors := opened p.anchor (.mapping kind true [] []) anchors
            match flowEntries handles true anchors rest with
            | .error f => .error f
            | .ok r =>
              let (n, anchors) := closed p.anchor (ofEntries kind r.value) r.anchors
              .ok ⟨n, anchors, r.rest, Nat.lt_trans r.shorter hle⟩
          else if t = .blockSequenceStart ∧ place.allowsBlock then
            let kind := collectionKind tag .sequence
            match blockItems handles (opened p.anchor (.sequence kind []) anchors) rest with
            | .error f => .error f
            | .ok r =>
              let (n, anchors) := closed p.anchor (.sequence kind r.value) r.anchors
              .ok ⟨n, anchors, r.rest, Nat.lt_trans r.shorter hle⟩
          else if t = .blockMappingStart ∧ place.allowsBlock then
            let kind := collectionKind tag .mapping
            let anchors := opened p.anchor (.mapping kind true [] []) anchors
            match blockEntries handles anchors rest with
            | .error f => .error f
            | .ok r =>
              let (n, anchors) := closed p.anchor (ofEntries kind r.value) r.anchors
              .ok ⟨n, anchors, r.rest, Nat.lt_trans r.shorter hle⟩
          else if t = .blockEntry ∧ place = .entry then
            let kind := collectionKind tag .sequence
            match indentlessItems handles (opened p.anchor (.sequence kind []) anchors) rest with
            | .error f => .error f
            | .ok r =>
              let (n, anchors) := closed p.anchor (.sequence kind r.value) r.anchors
              .ok ⟨n, anchors, r.rest, by have := r.shorter; omega⟩
          else if h : rest.length + 1 < ts.length then
            let n : Node := .scalar (scalarKind tag p.tag.isSome true "") ""
            .ok ⟨n, register p.anchor n anchors, t :: rest, by simpa using h⟩
          else .error .malformed
        | [] =>
          if h : 0 < ts.length then
            let n : Node := .scalar (scalarKind tag p.tag.isSome true "") ""
            .ok ⟨n, register p.anchor n anchors, [], h⟩
          else .error .malformed
termination_by 3 * ts.length

def parseOrAbsent (handles : Handles) (place : Place) (ends : Token → Bool) (anchors : Anchors)
    (ts : List Token) : Parse Node (ts.length + 1) :=
  if ts.head?.any ends then .ok ⟨absent, anchors, ts, Nat.lt_succ_self _⟩
  else
    match parse handles place anchors ts with
    | .error f => .error f
    | .ok r => .ok (r.widen (Nat.le_succ _))
termination_by 3 * ts.length + 1

def blockItems (handles : Handles) (anchors : Anchors) (ts : List Token) :
    Parse (List Node) ts.length :=
  match ts with
  | .blockEntry :: rest =>
    match parseOrAbsent handles .block endsBlockItem anchors rest with
    | .error f => .error f
    | .ok n =>
      have := n.shorter
      match blockItems handles n.anchors n.rest with
      | .error f => .error f
      | .ok r => .ok ⟨n.value :: r.value, r.anchors, r.rest, by
          have := r.shorter
          simp only [List.length_cons]
          omega⟩
  | .blockEnd :: rest => .ok ⟨[], anchors, rest, by simp⟩
  | ts => .error (faultAt ts)
termination_by 3 * ts.length

def indentlessItems (handles : Handles) (anchors : Anchors) (ts : List Token) :
    Parse (List Node) (ts.length + 1) :=
  match parseOrAbsent handles .block endsIndentlessItem anchors ts with
  | .error f => .error f
  | .ok n =>
    match ht : afterToken .blockEntry n.rest with
    | some rest =>
      have h : rest.length < ts.length := by
        have := length_afterToken_lt ht
        have := n.shorter
        omega
      match indentlessItems handles n.anchors rest with
      | .error f => .error f
      | .ok r => .ok ⟨n.value :: r.value, r.anchors, r.rest, by have := r.shorter; omega⟩
    | none => .ok ⟨[n.value], n.anchors, n.rest, n.shorter⟩
termination_by 3 * ts.length + 2

def blockEntries (handles : Handles) (anchors : Anchors) (ts : List Token) :
    Parse (List (Node × Node)) ts.length :=
  match ts with
  | .key :: rest =>
    match parseOrAbsent handles .entry endsBlockKey anchors rest with
    | .error f => .error f
    | .ok k =>
      have hk := k.shorter
      match mappingValue handles .entry endsBlockKey k.anchors k.rest with
      | .error f => .error f
      | .ok v =>
        have hv := v.shorter
        match blockEntries handles v.anchors v.rest with
        | .error f => .error f
        | .ok r => .ok ⟨(k.value, v.value) :: r.value, r.anchors, r.rest, by
            have := r.shorter
            simp only [List.length_cons]
            omega⟩
  | .blockEnd :: rest => .ok ⟨[], anchors, rest, by simp⟩
  | ts => .error (faultAt ts)
termination_by 3 * ts.length

def mappingValue (handles : Handles) (place : Place) (ends : Token → Bool) (anchors : Anchors)
    (ts : List Token) : Parse Node (ts.length + 1) :=
  match ht : afterToken .value ts with
  | some rest =>
    have h := length_afterToken_lt ht
    match parseOrAbsent handles place ends anchors rest with
    | .error f => .error f
    | .ok v => .ok (v.widen (by omega))
  | none => .ok ⟨absent, anchors, ts, Nat.lt_succ_self _⟩
termination_by 3 * ts.length + 2

def flowItems (handles : Handles) (first : Bool) (anchors : Anchors) (ts : List Token) :
    Parse (List Node) ts.length :=
  match ts with
  | .flowSequenceEnd :: rest => .ok ⟨[], anchors, rest, by simp⟩
  | ts =>
    match hs : if first then some ts else afterToken .flowEntry ts with
    | none => .error (faultAt ts)
    | some body =>
      have hb : body.length ≤ ts.length := by
        split at hs
        · simp only [Option.some.injEq] at hs; subst hs; exact Nat.le_refl _
        · exact Nat.le_of_lt (length_afterToken_lt hs)
      match hbody : body with
      | .flowSequenceEnd :: rest => .ok ⟨[], anchors, rest, by
          simp only [List.length_cons] at hb; omega⟩
      | .key :: rest =>
        have hlt : rest.length < ts.length := by simp only [List.length_cons] at hb; omega
        match parseOrAbsent handles .flow endsFlowSequenceKey anchors rest with
        | .error f => .error f
        | .ok k =>
          have hk := k.shorter
          match mappingValue handles .flow (fun t => t = .flowEntry ∨ t = .flowSequenceEnd)
              k.anchors k.rest with
          | .error f => .error f
          | .ok v =>
            have hv := v.shorter
            match flowItems handles false v.anchors v.rest with
            | .error f => .error f
            | .ok r => .ok ⟨ofEntries .mapping [(k.value, v.value)] :: r.value, r.anchors, r.rest,
                by have := r.shorter; omega⟩
      | body =>
        have hb : body.length ≤ ts.length := by simpa [hbody] using hb
        match parse handles .flow anchors body with
        | .error f => .error f
        | .ok n =>
          have hn := n.shorter
          match flowItems handles false n.anchors n.rest with
          | .error f => .error f
          | .ok r => .ok ⟨n.value :: r.value, r.anchors, r.rest, by have := r.shorter; omega⟩
termination_by 3 * ts.length + 2

def flowEntries (handles : Handles) (first : Bool) (anchors : Anchors) (ts : List Token) :
    Parse (List (Node × Node)) ts.length :=
  match ts with
  | .flowMappingEnd :: rest => .ok ⟨[], anchors, rest, by simp⟩
  | ts =>
    match hs : if first then some ts else afterToken .flowEntry ts with
    | none => .error (faultAt ts)
    | some body =>
      have hb : body.length ≤ ts.length := by
        split at hs
        · simp only [Option.some.injEq] at hs; subst hs; exact Nat.le_refl _
        · exact Nat.le_of_lt (length_afterToken_lt hs)
      match hbody : body with
      | .flowMappingEnd :: rest => .ok ⟨[], anchors, rest, by
          simp only [List.length_cons] at hb; omega⟩
      | .key :: rest =>
        have hlt : rest.length < ts.length := by simp only [List.length_cons] at hb; omega
        match parseOrAbsent handles .flow endsFlowMappingKey anchors rest with
        | .error f => .error f
        | .ok k =>
          have hk := k.shorter
          match mappingValue handles .flow (fun t => t = .flowEntry ∨ t = .flowMappingEnd)
              k.anchors k.rest with
          | .error f => .error f
          | .ok v =>
            have hv := v.shorter
            match flowEntries handles false v.anchors v.rest with
            | .error f => .error f
            | .ok r => .ok ⟨(k.value, v.value) :: r.value, r.anchors, r.rest,
                by have := r.shorter; omega⟩
      | body =>
        have hb : body.length ≤ ts.length := by simpa [hbody] using hb
        match parse handles .flow anchors body with
        | .error f => .error f
        | .ok n =>
          have hn := n.shorter
          match flowEntries handles false n.anchors n.rest with
          | .error f => .error f
          | .ok r => .ok ⟨(n.value, absent) :: r.value, r.anchors, r.rest,
              by have := r.shorter; omega⟩
termination_by 3 * ts.length + 2

end

end Node

end WorkspaceCycles.Yaml
