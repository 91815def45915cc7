import WorkspaceCycles.Text.Quoted
import WorkspaceCycles.Text.Similar
import WorkspaceCycles.Text.Split

namespace WorkspaceCycles.CommandLine

structure Switch where
  name : String
  letter : Option Char := none
  value : Option String := none
  help : String
deriving DecidableEq, Repr

def Switch.takesValue (s : Switch) : Bool :=
  s.value.isSome

structure Given where
  switch : Switch
  value : String := ""
deriving DecidableEq, Repr

inductive SwitchFault where
  | unknown (name : String) (alike : List String)
  | needsValue (name : String)
  | takesNoValue (name : String)
deriving DecidableEq, Repr

def suggestion (alike : List String) : String :=
  match (alike.mergeSort (decide <| · ≤ ·)).map Text.quoted with
  | [] => ""
  | [one] => " Did you mean " ++ one ++ "?"
  | several => " (Did you mean one of: " ++ ", ".intercalate several ++ "?)"

def SwitchFault.message : SwitchFault → String
  | .unknown name alike => "No such option " ++ Text.quoted name ++ "." ++ suggestion alike
  | .needsValue name => "Option " ++ Text.quoted name ++ " requires an argument."
  | .takesNoValue name => "Option " ++ Text.quoted name ++ " does not take a value."

abbrev Reading := Except SwitchFault (List Given × Bool)

def giveValue (s : Switch) (name : String) (attached next : Option String) : Reading :=
  match attached, next with
  | some v, _ => .ok ([⟨s, v⟩], false)
  | none, some v => .ok ([⟨s, v⟩], true)
  | none, none => .error (.needsValue name)

def readLetters (switches : List Switch) (next : Option String) : List Char → Reading
  | [] => .ok ([], false)
  | c :: cs =>
    let name := String.ofList ['-', c]
    match switches.find? fun s => s.letter = some c with
    | none => .error (.unknown name [])
    | some s =>
      if s.takesValue then
        giveValue s name (if cs.isEmpty then none else some (String.ofList cs)) next
      else (readLetters switches next cs).map fun r => (⟨s, ""⟩ :: r.1, r.2)

def splitValue (arg : List Char) : String × Option String :=
  (String.ofList (arg.takeWhile (· != '=')),
    match arg.dropWhile (· != '=') with
    | _ :: v => some (String.ofList v)
    | [] => none)

def readSwitch (switches : List Switch) (next : Option String) (arg : String) : Reading :=
  let (name, attached) := splitValue arg.toList
  match switches.find? (·.name = name), arg.toList with
  | some s, _ =>
    if s.takesValue then giveValue s name attached next
    else if attached.isSome then .error (.takesNoValue name)
    else .ok ([⟨s, ""⟩], false)
  | none, '-' :: '-' :: _ =>
    .error (.unknown name (Text.closest (switches.map (·.name)) name))
  | none, cs => readLetters switches next cs.tail

structure Arguments where
  given : List Given := []
  others : List String := []

def isSwitch (arg : String) : Bool :=
  match arg.toList with
  | '-' :: _ :: _ => true
  | _ => false

def Arguments.read (switches : List Switch) (mixed : Bool) (args : List String) :
    Except SwitchFault Arguments :=
  match args with
  | [] => .ok {}
  | arg :: rest =>
    if arg = "--" then .ok { others := rest }
    else if isSwitch arg then
      match readSwitch switches rest.head? arg with
      | .error f => .error f
      | .ok (given, taken) =>
        (read switches mixed (if taken then rest.tail else rest)).map fun a =>
          { a with given := given ++ a.given }
    else if mixed then
      (read switches mixed rest).map fun a => { a with others := arg :: a.others }
    else .ok { others := args }
termination_by args.length
decreasing_by
  · split <;> simp only [List.length_tail, List.length_cons] <;> omega
  · simp

namespace Arguments

def has (a : Arguments) (s : Switch) : Bool :=
  a.given.any (·.switch = s)

def values (a : Arguments) (s : Switch) : List String :=
  (a.given.filter (·.switch = s)).map (·.value)

def value? (a : Arguments) (s : Switch) : Option String :=
  (a.values s).getLast?

end Arguments

end WorkspaceCycles.CommandLine
