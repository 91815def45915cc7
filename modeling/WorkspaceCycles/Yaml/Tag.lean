import WorkspaceCycles.Text.Utf8
import WorkspaceCycles.Yaml.Character
import WorkspaceCycles.Yaml.Fault
import WorkspaceCycles.Yaml.Token

namespace WorkspaceCycles.Yaml

def splitName (s : List Char) : String × List Char :=
  (String.ofList (s.takeWhile isNameChar), s.dropWhile isNameChar)

def readAnchor (s : List Char) : Except Fault (String × List Char) :=
  let (name, rest) := splitName s
  if name.isEmpty || !endsAt [' ', '\t', '?', ':', ',', ']', '\x7d', '%', '@', '\x60'] rest then
    .error .malformed
  else .ok (name, rest)

def readHandle (s : List Char) : Except Fault (String × List Char) :=
  match s with
  | '!' :: ' ' :: rest => .ok ("!", ' ' :: rest)
  | '!' :: rest =>
    let (name, behind) := splitName rest
    match behind with
    | '!' :: more => .ok ("!" ++ name ++ "!", more)
    | _ => .error .malformed
  | _ => .error .malformed

def isTagChar (c : Char) : Bool :=
  isNameChar c || [';', '/', '?', ':', '@', '&', '=', '+', '$', ',', '.', '!', '~', '*', '\'', '(',
    ')', '[', ']'].contains c

def tagBytes : List Char → Except Fault (List UInt8 × List Char)
  | '%' :: a :: b :: rest =>
    match Json.hexValue? a, Json.hexValue? b with
    | some a, some b => (tagBytes rest).map fun r => (UInt8.ofNat (a * 16 + b) :: r.1, r.2)
    | _, _ => .error .malformed
  | c :: rest =>
    if c = '%' then .error .malformed
    else if isTagChar c then (tagBytes rest).map fun r => (UInt8.ofNat c.toNat :: r.1, r.2)
    else .ok ([], c :: rest)
  | [] => .ok ([], [])

def readTagPart (s : List Char) : Except Fault (String × List Char) := do
  let (bytes, rest) ← tagBytes s
  match bytes, Text.Utf8.decode bytes with
  | _ :: _, .ok text => return (String.ofList text, rest)
  | _, _ => throw .malformed

def readTagName (s : List Char) : Except Fault (TagName × List Char) :=
  match s with
  | '!' :: '<' :: rest => do
    let (name, rest) ← readTagPart rest
    match rest with
    | '>' :: rest => return (.verbatim name, rest)
    | _ => throw .malformed
  | '!' :: rest =>
    if endsWord rest then .ok (.verbatim "!", rest)
    else do
      let word := rest.takeWhile fun c => c != ' ' && !isBreak c
      let (handle, rest) ← if word.contains '!' then readHandle s else .ok ("!", rest)
      let (suffix, rest) ← readTagPart rest
      return (.shorthand handle suffix, rest)
  | _ => .error .malformed

def readTag (s : List Char) : Except Fault (TagName × List Char) := do
  let (name, rest) ← readTagName s
  if endsAt [' '] rest then return (name, rest) else throw .malformed

def splitDigits (s : List Char) : List Char × List Char :=
  (s.takeWhile Char.isDigit, s.dropWhile Char.isDigit)

def readVersionNumber (s : List Char) : Except Fault (Nat × List Char) :=
  let (digits, rest) := splitDigits s
  if digits.isEmpty then .error .malformed
  else if Json.maxDigits < digits.length then .error (.tooLong digits.length)
  else .ok (Decimal.digitsValue digits, rest)

def readVersion (s : List Char) : Except Fault (Directive × List Char) := do
  let (major, rest) ← readVersionNumber (s.dropWhile isSpace)
  let (_, rest) ← readVersionNumber (← (after? '.' rest).elim (throw .malformed) pure)
  if endsAt [' '] rest then return (.version major, rest) else throw .malformed

def readTagDirective (s : List Char) : Except Fault (Directive × List Char) := do
  let (handle, rest) ← readHandle (s.dropWhile isSpace)
  if rest.head? ≠ some ' ' then throw .malformed
  let (lead, rest) ← readTagPart (rest.dropWhile isSpace)
  if endsAt [' '] rest then return (.tag handle lead, rest) else throw .malformed

def readDirective (s : List Char) : Except Fault (Directive × List Char) :=
  let (name, rest) := splitName s
  if name.isEmpty || !endsAt [' '] rest then .error .malformed
  else if name = "YAML" then readVersion rest
  else if name = "TAG" then readTagDirective rest
  else .ok (.other, rest.dropWhile notBreak)

end WorkspaceCycles.Yaml
