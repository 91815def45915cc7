import WorkspaceCycles.Decimal.Reader
import WorkspaceCycles.Text.Utf8
import WorkspaceCycles.Value

/-!
Validation of documents. A value either has the asked form or breaks it in one or more places;
all violations are collected, in the order of the fields. Numbers and booleans may be written as
text, and a number stands for a boolean if it is zero or one.
-/

namespace WorkspaceCycles

structure Violation where
  place : List String
  message : String
deriving DecidableEq, Repr

def Violation.placeText (v : Violation) : String :=
  ".".intercalate v.place

inductive Validated (α : Type) where
  | valid (value : α)
  | invalid (violations : List Violation)

namespace Validated

variable {α β : Type}

def map (f : α → β) : Validated α → Validated β
  | .valid a => .valid (f a)
  | .invalid vs => .invalid vs

def apply : Validated (α → β) → Validated α → Validated β
  | .valid f, .valid a => .valid (f a)
  | .valid _, .invalid vs => .invalid vs
  | .invalid vs, .valid _ => .invalid vs
  | .invalid vs, .invalid ws => .invalid (vs ++ ws)

instance : Functor Validated where
  map := map

instance : Seq Validated where
  seq f a := apply f (a ())

def fail (message : String) : Validated α :=
  .invalid [⟨[], message⟩]

def check (ok : α → Bool) (message : α → String) : Validated α → Validated α
  | .valid a => if ok a then .valid a else fail (message a)
  | .invalid vs => .invalid vs

def inside (name : String) : Validated α → Validated α
  | .valid a => .valid a
  | .invalid vs => .invalid (vs.map fun v => { v with place := name :: v.place })

end Validated

namespace Validation

abbrev Rule (α : Type) := Value → Validated α

inductive Written where
  | text (s : List Char)
  | notText
  | undecodable

def written : Value → Written
  | .text s => .text s.toList
  | .bytes bs =>
    match Text.Utf8.decode bs with
    | .ok s => .text s
    | .error _ => .undecodable
  | _ => .notText

def text : Rule String := fun v =>
  match written v with
  | .text s => .valid (String.ofList s)
  | .undecodable =>
    .fail "Input should be a valid string, unable to parse raw data as a unicode string"
  | .notText => .fail "Input should be a valid string"

def optional {α : Type} (rule : Rule α) : Rule (Option α)
  | .null => .valid none
  | v => (rule v).map some

def trueWords : List String := ["1", "on", "t", "true", "y", "yes"]

def falseWords : List String := ["0", "off", "f", "false", "n", "no"]

def unclearFlag : Validated Bool :=
  .fail "Input should be a valid boolean, unable to interpret input"

def noFlag : Validated Bool :=
  .fail "Input should be a valid boolean"

def wordLimit : Int := 0x8000000000000000

def wholeLimit : Float := 9223372036854775808.0

def isWhole (x : Float) : Bool :=
  x.isFinite && x.floor == x

def flag : Rule Bool
  | .bool b => .valid b
  | .int n =>
    if n = 0 then .valid false
    else if n = 1 then .valid true
    else if -wordLimit ≤ n ∧ n < wordLimit then unclearFlag
    else noFlag
  | .float x =>
    if x == 0.0 then .valid false
    else if x == 1.0 then .valid true
    else if isWhole x && -wholeLimit < x && x < wholeLimit then unclearFlag
    else noFlag
  | v =>
    match written v with
    | .text s =>
      let word := Decimal.lower s
      if word ∈ trueWords then .valid true
      else if word ∈ falseWords then .valid false
      else unclearFlag
    | .undecodable => unclearFlag
    | .notText => noFlag

def tooLarge : Validated Int :=
  .fail "Unable to parse input string as an integer, exceeded maximum size"

def unreadableInt : Validated Int :=
  .fail "Input should be a valid integer, unable to parse string as an integer"

def maxIntSize : Nat := 4300

def int : Rule Int
  | .int n => .valid n
  | .bool b => .valid (if b then 1 else 0)
  | .float x =>
    if !x.isFinite then .fail "Input should be a finite number"
    else if !isWhole x then
      .fail "Input should be a valid integer, got a number with a fractional part"
    else if -wholeLimit < x && x < wholeLimit then .valid x.toInt64.toInt
    else tooLarge
  | v =>
    match written v with
    | .text s =>
      if maxIntSize < (String.ofList s).utf8ByteSize then tooLarge
      else
        match Decimal.readTypedInt? s with
        | some n => .valid n
        | none => unreadableInt
    | .undecodable => unreadableInt
    | .notText => .fail "Input should be a valid integer"

def unreadableNumber : Validated Float :=
  .fail "Input should be a valid number, unable to parse string as a number"

def noNumber : Validated Float :=
  .fail "Input should be a valid number"

def number : Rule Float
  | .float x => .valid x
  | .bool b => .valid (if b then 1.0 else 0.0)
  | .int n =>
    let x := Float.ofInt n
    if x.isFinite then .valid x else noNumber
  | v =>
    match written v with
    | .text s =>
      match Decimal.readTypedFloat? s with
      | some x => .valid x
      | none => unreadableNumber
    | .undecodable => unreadableNumber
    | .notText => noNumber

def choice {α : Type} (expected : String) (options : List (String × α)) : Rule α := fun v =>
  match v with
  | .text s =>
    match options.lookup s with
    | some a => .valid a
    | none => .fail expected
  | _ => .fail expected

def items {α : Type} (rule : Rule α) (index : Nat) : List Value → Validated (List α)
  | [] => .valid []
  | v :: vs => List.cons <$> (rule v).inside (toString index) <*> items rule (index + 1) vs

def list {α : Type} (rule : Rule α) : Rule (List α)
  | .list vs => items rule 0 vs
  | .set vs => items rule 0 vs
  | _ => .fail "Input should be a valid list"

def atLeast {α : Type} (count : Nat) (rule : Rule (List α)) : Rule (List α) := fun v =>
  (rule v).check (fun xs => count ≤ xs.length) fun xs =>
    "List should have at least " ++ toString count ++ " items after validation, not " ++
      toString xs.length

abbrev Fields := List (String × Value)

/-- A field may be written in two ways, the first of which goes before the other. -/
structure FieldName where
  camel : String
  snake : String
deriving DecidableEq, Repr

def FieldName.find? (n : FieldName) (fields : Fields) : Option (String × Value) :=
  match Assoc.get? fields n.camel with
  | some v => some (n.camel, v)
  | none => (Assoc.get? fields n.snake).map fun v => (n.snake, v)

def required {α : Type} (n : FieldName) (rule : Rule α) (fields : Fields) : Validated α :=
  match n.find? fields with
  | some (k, v) => (rule v).inside k
  | none => (Validated.fail "Field required").inside n.camel

def withDefault {α : Type} (n : FieldName) (rule : Rule α) (absent : α) (fields : Fields) :
    Validated α :=
  match n.find? fields with
  | some (k, v) => (rule v).inside k
  | none => .valid absent

def record {α : Type} (kind : String) (rule : Fields → Validated α) : Rule α
  | .record fields => rule fields
  | _ => .fail ("Input should be a valid dictionary or instance of " ++ kind)

end Validation

end WorkspaceCycles
