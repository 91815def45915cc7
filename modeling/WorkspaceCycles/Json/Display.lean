import WorkspaceCycles.Json.Writer
import WorkspaceCycles.Text.Quoted

namespace WorkspaceCycles.Json

mutual

def inner : Json → List Char
  | .null => "None".toList
  | .bool true => "True".toList
  | .bool false => "False".toList
  | .int n => writeInt n
  | .float x => (Decimal.display x).toList
  | .text s => (Text.quoted s).toList
  | .list [] => ['[', ']']
  | .list (item :: items) => '[' :: inner item ++ innerItems items ++ [']']
  | .object [] => ['\x7b', '\x7d']
  | .object ((k, v) :: fields) =>
    '\x7b' :: (Text.quoted k).toList ++ ':' :: ' ' :: inner v ++ innerFields fields ++ ['\x7d']

def innerItems : List Json → List Char
  | [] => []
  | item :: items => ',' :: ' ' :: inner item ++ innerItems items

def innerFields : List (String × Json) → List Char
  | [] => []
  | (k, v) :: fields =>
    ',' :: ' ' :: (Text.quoted k).toList ++ ':' :: ' ' :: inner v ++ innerFields fields

end

def displayInner (v : Json) : String :=
  String.ofList (inner v)

def display : Json → String
  | .text s => s
  | v => displayInner v

end WorkspaceCycles.Json
