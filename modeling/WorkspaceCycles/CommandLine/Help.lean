import WorkspaceCycles.CommandLine.Switch

namespace WorkspaceCycles.CommandLine

structure Command where
  words : String
  arguments : String
  summary : String
  switches : List Switch
  commands : List (String × String) := []

def lineWidth : Nat := 80

def fillLines (width : Nat) (line : String) : List String → List String
  | [] => [line]
  | word :: words =>
    if line.length + 1 + word.length ≤ width then fillLines width (line ++ " " ++ word) words
    else line :: fillLines width word words

def wrap (width : Nat) (text : String) : List String :=
  match (Text.split ' ' text.toList).map String.ofList with
  | [] => []
  | word :: words => fillLines width word words

def blanks (n : Nat) : String :=
  String.ofList (List.replicate n ' ')

def columns (rows : List (String × String)) : List String :=
  let width := (rows.map (·.1.length)).foldl max 0 + 2
  rows.flatMap fun row =>
    match wrap (lineWidth - width - 2) row.2 with
    | [] => ["  " ++ row.1]
    | line :: lines =>
      ("  " ++ row.1 ++ blanks (width - row.1.length) ++ line) ::
        lines.map fun l => blanks (width + 2) ++ l

def Switch.term (s : Switch) : String :=
  (match s.letter with
    | some c => String.ofList ['-', c, ',', ' ']
    | none => "") ++
  s.name ++
  (match s.value with
    | some v => " " ++ v
    | none => "")

namespace Command

def usage (c : Command) : String :=
  "Usage: " ++ c.words ++ " " ++ c.arguments

def help (c : Command) : String :=
  let commands := if c.commands.isEmpty then [] else ["", "Commands:"] ++ columns c.commands
  "\n".intercalate
    ([c.usage, "", "  " ++ c.summary, "", "Options:"] ++
      columns (c.switches.map fun s => (s.term, s.help)) ++ commands)

def hint (c : Command) : String :=
  c.usage ++ "\nTry '" ++ c.words ++ " --help' for help.\n"

end Command

end WorkspaceCycles.CommandLine
