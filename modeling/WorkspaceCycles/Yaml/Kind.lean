import WorkspaceCycles.Text.Split
import WorkspaceCycles.Yaml.Moment

namespace WorkspaceCycles.Yaml

inductive Kind where
  | null
  | bool
  | int
  | float
  | text
  | bytes
  | moment
  | orderedMap
  | pairs
  | set
  | sequence
  | mapping
  | merge
  | default
  | unknown
deriving DecidableEq, Repr, Inhabited

namespace Kind

def standard : List (String × Kind) :=
  [("null", .null), ("bool", .bool), ("int", .int), ("float", .float), ("str", .text),
    ("binary", .bytes), ("timestamp", .moment), ("omap", .orderedMap), ("pairs", .pairs),
    ("set", .set), ("seq", .sequence), ("map", .mapping), ("merge", .merge), ("value", .default)]

def isCollection : Kind → Bool
  | .orderedMap => true
  | .pairs => true
  | .set => true
  | .sequence => true
  | .mapping => true
  | _ => false

def standardLead : String := "tag:yaml.org,2002:"

def ofTag (tag : String) : Kind :=
  ((standard.map fun s => (standardLead ++ s.1, s.2)).lookup tag).getD .unknown

def booleans : List (String × Bool) :=
  [("yes", true), ("no", false), ("true", true), ("false", false), ("on", true), ("off", false)]

def casings (word : String) : List String :=
  [word, word.capitalize, word.map Char.toUpper]

def nulls : List String := ["", "~"] ++ casings "null"

def isOctal (c : Char) : Bool := '0' ≤ c && c ≤ '7'

def isHex (c : Char) : Bool := c.isDigit || ('a' ≤ c && c ≤ 'f') || ('A' ≤ c && c ≤ 'F')

def madeOf (p : Char → Bool) (s : List Char) : Bool :=
  !s.isEmpty && s.all fun c => p c || c == '_'

def areSixties (s : List Char) : Bool :=
  match Text.split ':' s with
  | [] :: group :: groups =>
    (group :: groups).all fun g =>
      match g with
      | [d] => d.isDigit
      | [t, d] => '0' ≤ t && t ≤ '5' && d.isDigit
      | _ => false
  | _ => false

def isDigitOrUnderscore (c : Char) : Bool := c.isDigit || c == '_'

def isInt (s : List Char) : Bool :=
  match (Decimal.splitSign s).2 with
  | ['0'] => true
  | '0' :: 'b' :: rest => madeOf (fun c => c == '0' || c == '1') rest
  | '0' :: 'x' :: rest => madeOf isHex rest
  | '0' :: rest => madeOf isOctal rest
  | c :: rest =>
    let behind := rest.dropWhile isDigitOrUnderscore
    c.isDigit && (behind.isEmpty || areSixties behind)
  | [] => false

def isExponent (s : List Char) : Bool :=
  match s with
  | [] => true
  | e :: sign :: digits =>
    (e == 'e' || e == 'E') && Decimal.isSign sign && !digits.isEmpty && digits.all Char.isDigit
  | _ => false

def isFloat (s : List Char) : Bool :=
  let body := (Decimal.splitSign s).2
  let infinity := (casings "inf").any fun w => body = '.' :: w.toList
  let noNumber := ["nan", "NaN", "NAN"].any fun w => s = '.' :: w.toList
  let positional :=
    match body with
    | d :: rest =>
      let behind := rest.dropWhile isDigitOrUnderscore
      let sixties := behind.takeWhile (· != '.')
      match behind.dropWhile (· != '.') with
      | '.' :: fraction =>
        let tail := fraction.dropWhile isDigitOrUnderscore
        d.isDigit &&
          ((sixties.isEmpty && isExponent tail) || (areSixties sixties && tail.isEmpty))
      | _ => false
    | [] => false
  let fractional :=
    match s with
    | '.' :: d :: rest => d.isDigit && isExponent (rest.dropWhile isDigitOrUnderscore)
    | _ => false
  infinity || noNumber || positional || fractional

def isMoment (s : List Char) : Bool :=
  (readMoment? s).any fun m => m.time.isSome || m.wide

def ofPlain (text : String) : Kind :=
  let s := withoutLastBreak text.toList
  let text := String.ofList s
  if (booleans.flatMap fun b => casings b.1).contains text then .bool
  else if isFloat s then .float
  else if isInt s then .int
  else if text = "<<" then .merge
  else if nulls.contains text then .null
  else if isMoment s then .moment
  else if text = "=" then .default
  else if ["!", "&", "*"].contains text then .unknown
  else .text

end Kind

end WorkspaceCycles.Yaml
