import WorkspaceCycles.Json.Reader
import WorkspaceCycles.Text.Quoted

namespace WorkspaceCycles.Yaml

inductive CalendarFault where
  | year (n : Nat)
  | month
  | day
  | hour
  | minute
  | second
  | offset (minutes : Int)
deriving DecidableEq, Repr

def spanText (minutes : Int) : String :=
  let days := minutes.fdiv 1440
  let seconds := minutes.fmod 1440 * 60
  let parts := (if days = 0 then [] else ["days=" ++ toString days]) ++
    (if seconds = 0 then [] else ["seconds=" ++ toString seconds])
  "datetime.timedelta(" ++ (if parts.isEmpty then "0" else ", ".intercalate parts) ++ ")"

def CalendarFault.message : CalendarFault → String
  | .year n => "year " ++ toString n ++ " is out of range"
  | .month => "month must be in 1..12"
  | .day => "day is out of range for month"
  | .hour => "hour must be in 0..23"
  | .minute => "minute must be in 0..59"
  | .second => "second must be in 0..59"
  | .offset minutes =>
    "offset must be a timedelta strictly between -timedelta(hours=24) and timedelta(hours=24), " ++
      "not " ++ spanText minutes ++ "."

inductive Fault where
  | malformed
  | noCharacter (n : Nat)
  | noInteger (base : Nat) (text : List Char)
  | noNumber (text : List Char)
  | tooLong (digits : Nat)
  | tooLarge
  | emptyNumber
  | noFlag (text : List Char)
  | noMoment
  | noText
  | calendar (fault : CalendarFault)
  | tooDeep
deriving DecidableEq, Repr

def Fault.message : Fault → String
  | .malformed => ""
  | .noCharacter n =>
    if n < 0x80000000 then "chr() arg not in range(0x110000)"
    else "Python int too large to convert to C int"
  | .noInteger base text =>
    "invalid literal for int() with base " ++ toString base ++ ": " ++
      Text.quoted (String.ofList text)
  | .noNumber text => "could not convert string to float: " ++ Text.quoted (String.ofList text)
  | .tooLong digits => Json.tooLongMessage digits
  | .tooLarge => "int too large to convert to float"
  | .emptyNumber => "string index out of range"
  | .noFlag text => Text.quoted (String.ofList text)
  | .noMoment => "'NoneType' object has no attribute 'groupdict'"
  | .noText => "expected string or bytes-like object, got 'list'"
  | .calendar fault => fault.message
  | .tooDeep => "maximum recursion depth exceeded"

end WorkspaceCycles.Yaml
