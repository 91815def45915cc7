import WorkspaceCycles.Decimal.Shortest

namespace WorkspaceCycles.Decimal

structure Layout where
  upper : Int
  keepPoint : Bool

def plain : Layout := ⟨16, true⟩

def brief : Layout := ⟨6, false⟩

def writeExponent (e : Int) : List Char :=
  let digits := Nat.toDigits 10 e.natAbs
  'e' :: (if e < 0 then '-' else '+') :: (if digits.length < 2 then '0' :: digits else digits)

def write (l : Layout) (d : Decimal) : List Char :=
  let digits := Nat.toDigits 10 d.digits
  let point := d.point
  let whole := if l.keepPoint then ['.', '0'] else []
  if d.digits = 0 then '0' :: whole
  else if -4 < point && point ≤ l.upper then
    if point ≤ 0 then '0' :: '.' :: List.replicate (-point).toNat '0' ++ digits
    else if digits.length ≤ point.toNat then
      digits ++ List.replicate (point.toNat - digits.length) '0' ++ whole
    else digits.take point.toNat ++ '.' :: digits.drop point.toNat
  else
    match digits with
    | [d] => d :: writeExponent (point - 1)
    | d :: ds => d :: '.' :: ds ++ writeExponent (point - 1)
    | [] => []

def writeFloat (l : Layout) (digits : Binary → Decimal) (x : Float) : String :=
  if x.isNaN then "nan"
  else
    let sign := if x.toBits.toNat >>> 63 = 1 then ['-'] else []
    let body := if x.isInf then "inf".toList else write l (digits (Binary.ofFloat x))
    String.ofList (sign ++ body)

def display (x : Float) : String :=
  writeFloat plain Binary.shortest x

def displayBrief (x : Float) : String :=
  writeFloat brief (fun b => if b.mantissa = 0 then ⟨0, 0⟩ else b.rounded 6) x

def toFloat (d : Decimal) : Float :=
  if d.digits = 0 then 0.0
  else if 400 < d.point then 1.0 / 0.0
  else if d.point < -400 then 0.0
  else Float.ofScientific d.digits (d.exponent < 0) d.exponent.natAbs

end WorkspaceCycles.Decimal
