/-!
Decimal digits of a binary floating-point number. A finite number is `m * 2 ^ q` with whole `m`
and `q`. `shortest` gives the fewest digits that read back as the same number, the nearest of
those; `rounded` gives a fixed count of digits, a tie going to the even neighbour.
-/

namespace WorkspaceCycles

structure Decimal where
  digits : Nat
  exponent : Int
deriving DecidableEq, Repr

namespace Decimal

def trimZeros (d : Decimal) : Decimal :=
  let zeros := ((Nat.toDigits 10 d.digits).reverse.takeWhile (· == '0')).length
  if d.digits = 0 then ⟨0, 0⟩ else ⟨d.digits / Nat.pow 10 zeros, d.exponent + zeros⟩

def point (d : Decimal) : Int :=
  (Nat.toDigits 10 d.digits).length + d.exponent

end Decimal

/-- The positive number `mantissa * 2 ^ exponent`, with the gap to its neighbour below halved if
`narrow`. -/
structure Binary where
  mantissa : Nat
  exponent : Int
  narrow : Bool
deriving DecidableEq, Repr

namespace Binary

def ofFloat (x : Float) : Binary :=
  let bits := x.toBits.toNat
  let field : Nat := bits >>> 52 % 0x800
  let fraction : Nat := bits % 0x10000000000000
  if field = 0 then Binary.mk fraction (-1074) false
  else Binary.mk (0x10000000000000 + fraction) (field - 1075 : Int) (fraction == 0 && 1 < field)

def ratio (n : Nat) (two ten : Int) : Nat × Nat :=
  (n * Nat.pow 2 two.toNat * Nat.pow 10 ten.toNat,
    Nat.pow 2 (-two).toNat * Nat.pow 10 (-ten).toNat)

def magnitude (b : Binary) : Int :=
  let (num, den) := ratio b.mantissa b.exponent 0
  if den ≤ num then (Nat.toDigits 10 (num / den)).length
  else
    let scaled := num * Nat.pow 10 400 / den
    if scaled = 0 then -400 else (Nat.toDigits 10 scaled).length - 400

def readsBack (b : Binary) (n : Nat) (unit : Int) : Bool :=
  let low := 4 * b.mantissa - (if b.narrow then 1 else 2)
  let (lowNum, lowDen) := ratio low (b.exponent - 2) (-unit)
  let (highNum, highDen) := ratio (4 * b.mantissa + 2) (b.exponent - 2) (-unit)
  if b.mantissa % 2 = 0 then lowNum ≤ n * lowDen && n * highDen ≤ highNum
  else lowNum < n * lowDen && n * highDen < highNum

def nearest (b : Binary) (unit : Int) : Nat :=
  let (num, den) := ratio b.mantissa b.exponent (-unit)
  let below := num / den
  let double := 2 * (num % den)
  if double < den || (double = den && below % 2 = 0) then below else below + 1

def rounded (b : Binary) (count : Nat) : Decimal :=
  let unit := b.magnitude - count
  (Decimal.mk (b.nearest unit) unit).trimZeros

def candidate? (b : Binary) (count : Nat) : Option Decimal :=
  let unit := b.magnitude - count
  let n := b.nearest unit
  let (num, den) := ratio b.mantissa b.exponent (-unit)
  let other := if n * den ≤ num then n + 1 else n - 1
  if b.readsBack n unit then some ⟨n, unit⟩
  else if b.readsBack other unit then some ⟨other, unit⟩
  else none

def shortest (b : Binary) : Decimal :=
  if b.mantissa = 0 then ⟨0, 0⟩
  else
    match (List.range 17).findSome? fun k => b.candidate? (k + 1) with
    | some d => d.trimZeros
    | none => b.rounded 17

end Binary

end WorkspaceCycles
