import WorkspaceCycles.Decimal.Layout
import WorkspaceCycles.Text.Blank

namespace WorkspaceCycles.Decimal

def isSign (c : Char) : Bool := c == '+' || c == '-'

def splitSign (s : List Char) : Bool × List Char :=
  match s with
  | '-' :: rest => (true, rest)
  | '+' :: rest => (false, rest)
  | s => (false, s)

theorem length_splitSign_le (s : List Char) : (splitSign s).2.length ≤ s.length := by
  unfold splitSign
  split <;> simp

def digitsValue (ds : List Char) : Nat :=
  ds.foldl (fun n d => n * 10 + (d.toNat - 48)) 0

def readExponent? (s : List Char) : Option Int :=
  match s with
  | [] => some 0
  | e :: rest =>
    let (negative, ds) := splitSign rest
    if (e == 'e' || e == 'E') && ds != [] && ds.all Char.isDigit then
      some (if negative then -(digitsValue ds : Int) else digitsValue ds)
    else none

def readUnsigned? (s : List Char) : Option Decimal :=
  let whole := s.takeWhile Char.isDigit
  let rest := s.dropWhile Char.isDigit
  let (fraction, rest) : List Char × List Char :=
    match rest with
    | '.' :: more => (more.takeWhile Char.isDigit, more.dropWhile Char.isDigit)
    | rest => ([], rest)
  if whole = [] ∧ fraction = [] then none
  else (readExponent? rest).map fun e => ⟨digitsValue (whole ++ fraction), e - fraction.length⟩

def lower (s : List Char) : String :=
  String.ofList (s.map Char.toLower)

def readFloat? (s : List Char) : Option Float :=
  let (negative, body) := splitSign s
  let magnitude : Option Float :=
    if lower body = "inf" ∨ lower body = "infinity" then some (1.0 / 0.0)
    else if lower body = "nan" then some (0.0 / 0.0)
    else (readUnsigned? body).map toFloat
  magnitude.map fun x => if negative then -x else x

def dropUnderscores? (s : List Char) : Option (List Char) :=
  let doubled := (s.zip s.tail).any fun p => p.1 == '_' && p.2 == '_'
  if s.contains '_' && s.head? != some '_' && s.getLast? != some '_' && !doubled then
    some (s.filter (· != '_'))
  else none

def readTypedFloat? (s : List Char) : Option Float :=
  (readFloat? (Text.trimSpace s)).orElse fun _ =>
    (dropUnderscores? s).bind fun t => readFloat? (Text.trimSpace t)

def isIdle (c : Char) : Bool := c == '0' || c == '_'

/-- Leading zeros and the underscores among them are dropped in front of another digit; the last
of them stays where a point or nothing follows. Other text must begin with a digit or a minus. -/
def dropLeadingZeros? (s : List Char) : Option (List Char) :=
  match s with
  | '0' :: rest =>
    let last := (rest.takeWhile isIdle).getLast?.getD '0'
    match rest.dropWhile isIdle with
    | [] => some [last]
    | '.' :: more => some (last :: '.' :: more)
    | c :: more => if c.isDigit then some (c :: more) else none
  | c :: _ => if c.isDigit || c == '-' then some s else none
  | [] => none

def dropIdleFraction (s : List Char) : List Char :=
  match s.dropWhile (· != '.') with
  | '.' :: zeros => if zeros.all (· == '0') then s.takeWhile (· != '.') else s
  | _ => s

def readPlainInt? (s : List Char) : Option Int :=
  let (negative, ds) : Bool × List Char :=
    match s with
    | '-' :: ds => (true, ds)
    | ds => (false, ds)
  if ds = [] ∨ !ds.all Char.isDigit ∨ (ds.head? = some '0' ∧ ds ≠ ['0']) then none
  else some (if negative then -(digitsValue ds : Int) else digitsValue ds)

def readTypedInt? (s : List Char) : Option Int := do
  let s := Text.trimSpace s
  let s := match s with | '+' :: rest => rest | s => s
  let s ← dropLeadingZeros? s
  let s := dropIdleFraction s
  readPlainInt? ((dropUnderscores? s).getD s)

end WorkspaceCycles.Decimal
