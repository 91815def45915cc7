import WorkspaceCycles.Json

namespace WorkspaceCycles

inductive Value where
  | null
  | bool (b : Bool)
  | int (n : Int)
  | float (x : Float)
  | text (s : String)
  | bytes (bs : List UInt8)
  | date
  | moment
  | list (items : List Value)
  | set (members : List Value)
  | record (fields : List (String × Value))
deriving Inhabited, Repr

namespace Value

mutual

def ofJson : Json → Value
  | .null => .null
  | .bool b => .bool b
  | .int n => .int n
  | .float x => .float x
  | .text s => .text s
  | .list items => .list (ofItems items)
  | .object fields => .record (ofFields fields)

def ofItems : List Json → List Value
  | [] => []
  | item :: items => ofJson item :: ofItems items

def ofFields : List (String × Json) → List (String × Value)
  | [] => []
  | (k, v) :: fields => (k, ofJson v) :: ofFields fields

end

def isTruthy : Value → Bool
  | .null => false
  | .bool b => b
  | .int n => n != 0
  | .float x => x != 0.0
  | .text s => !s.isEmpty
  | .bytes bs => !bs.isEmpty
  | .date => true
  | .moment => true
  | .list items => !items.isEmpty
  | .set members => !members.isEmpty
  | .record fields => !fields.isEmpty

end Value

end WorkspaceCycles
