import WorkspaceCycles.Decimal.Reader
import WorkspaceCycles.Yaml.Character
import WorkspaceCycles.Yaml.Fault

namespace WorkspaceCycles.Yaml

structure TimeOfDay where
  hour : Nat
  minute : Nat
  second : Nat
  offset : Option Int
deriving DecidableEq, Repr

structure Moment where
  year : Nat
  month : Nat
  day : Nat
  wide : Bool
  time : Option TimeOfDay
deriving DecidableEq, Repr

def shortNumber? (least : Nat) (s : List Char) : Option (Nat × List Char) :=
  let digits := (s.take 2).takeWhile Char.isDigit
  if digits.length < least then none
  else some (Decimal.digitsValue digits, s.drop digits.length)

def readOffset? (s : List Char) : Option Int :=
  match s with
  | ['Z'] => some 0
  | sign :: rest => do
    let (hours, rest) ← shortNumber? 1 rest
    let minutes ←
      if rest.isEmpty then some 0
      else do
        let (minutes, rest) ← shortNumber? 2 (← after? ':' rest)
        if rest.isEmpty then some minutes else none
    let span : Int := hours * 60 + minutes
    if sign = '+' then some span else if sign = '-' then some (-span) else none
  | [] => none

def readTime? (s : List Char) : Option TimeOfDay := do
  let (hour, rest) ← shortNumber? 1 s
  let (minute, rest) ← shortNumber? 2 (← after? ':' rest)
  let (second, rest) ← shortNumber? 2 (← after? ':' rest)
  let rest := match rest with
    | '.' :: fraction => fraction.dropWhile Char.isDigit
    | rest => rest
  if rest.isEmpty then return { hour, minute, second, offset := none }
  let offset ← readOffset? (rest.dropWhile isBlank)
  return { hour, minute, second, offset := some offset }

def readMoment? (s : List Char) : Option Moment := do
  let digits := s.take 4
  if digits.length ≠ 4 ∨ !digits.all Char.isDigit then none
  let (month, rest₁) ← shortNumber? 1 (← after? '-' (s.drop 4))
  let (day, rest₂) ← shortNumber? 1 (← after? '-' rest₁)
  let wide := rest₂.length + 10 = s.length
  let year := Decimal.digitsValue digits
  match rest₂ with
  | [] => return { year, month, day, wide, time := none }
  | c :: rest =>
    let body ←
      if c = 'T' ∨ c = 't' then some rest
      else if isBlank c then some (rest.dropWhile isBlank)
      else none
    return { year, month, day, wide, time := some (← readTime? body) }

def isLeapYear (y : Nat) : Bool :=
  y % 4 = 0 && (y % 100 ≠ 0 || y % 400 = 0)

def daysIn (year month : Nat) : Nat :=
  if month = 2 then if isLeapYear year then 29 else 28
  else if [4, 6, 9, 11].contains month then 30
  else 31

def Moment.check (m : Moment) : Except CalendarFault Unit := do
  if let some t := m.time then
    if let some offset := t.offset then
      if 1440 ≤ offset.natAbs then throw (.offset offset)
  if m.year = 0 then throw (.year m.year)
  if m.month < 1 ∨ 12 < m.month then throw .month
  if m.day < 1 ∨ daysIn m.year m.month < m.day then throw .day
  if let some t := m.time then
    if 23 < t.hour then throw .hour
    if 59 < t.minute then throw .minute
    if 59 < t.second then throw .second

end WorkspaceCycles.Yaml
