import WorkspaceCycles.Json
import WorkspaceCycles.Decimal.Layout
import WorkspaceCycles.Text.Quoted

namespace WorkspaceCycles.Json

def escapeUnit (n : Nat) : List Char :=
  '\\' :: 'u' :: Text.hexDigits 4 n

def escapeChar (c : Char) : List Char :=
  let n := c.toNat
  if c = '"' then ['\\', '"']
  else if c = '\\' then ['\\', '\\']
  else if c = '\n' then ['\\', 'n']
  else if c = '\r' then ['\\', 'r']
  else if c = '\t' then ['\\', 't']
  else if n = 12 then ['\\', 'f']
  else if n = 8 then ['\\', 'b']
  else if 0x20 ≤ n ∧ n < 0x7f then [c]
  else if n < 0x10000 then escapeUnit n
  else escapeUnit (0xd800 + (n - 0x10000) / 0x400) ++ escapeUnit (0xdc00 + (n - 0x10000) % 0x400)

def writeText (s : String) : List Char :=
  '"' :: s.toList.flatMap escapeChar ++ ['"']

def writeInt : Int → List Char
  | .ofNat n => Nat.toDigits 10 n
  | .negSucc n => '-' :: Nat.toDigits 10 (n + 1)

def writeFloat (x : Float) : List Char :=
  if x.isNaN then "NaN".toList
  else if x.isInf then (if x < 0.0 then "-Infinity" else "Infinity").toList
  else (Decimal.display x).toList

abbrev Break := Nat → List Char

def newLine : Break := fun depth => '\n' :: List.replicate (2 * depth) ' '

def noBreak : Break := fun _ => []

mutual

def write (br : Break) (depth : Nat) : Json → List Char
  | .null => "null".toList
  | .bool true => "true".toList
  | .bool false => "false".toList
  | .int n => writeInt n
  | .float x => writeFloat x
  | .text s => writeText s
  | .list [] => ['[', ']']
  | .list (item :: items) =>
    '[' :: br (depth + 1) ++ write br (depth + 1) item ++ writeItems br (depth + 1) items ++
      br depth ++ [']']
  | .object [] => ['\x7b', '\x7d']
  | .object ((k, v) :: fields) =>
    '\x7b' :: br (depth + 1) ++ writeText k ++ ':' :: ' ' :: write br (depth + 1) v ++
      writeFields br (depth + 1) fields ++ br depth ++ ['\x7d']

def writeItems (br : Break) (depth : Nat) : List Json → List Char
  | [] => []
  | item :: items => ',' :: br depth ++ write br depth item ++ writeItems br depth items

def writeFields (br : Break) (depth : Nat) : List (String × Json) → List Char
  | [] => []
  | (k, v) :: fields =>
    ',' :: br depth ++ writeText k ++ ':' :: ' ' :: write br depth v ++ writeFields br depth fields

end

def indented (v : Json) : String :=
  String.ofList (write newLine 0 v)

def oneLine (v : Json) : String :=
  String.ofList (write noBreak 0 v)

end WorkspaceCycles.Json
