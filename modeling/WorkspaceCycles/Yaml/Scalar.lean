import WorkspaceCycles.Value
import WorkspaceCycles.Yaml.Kind

namespace WorkspaceCycles.Yaml

def otherZeros : List Nat :=
  [0x660, 0x6f0, 0x7c0, 0x966, 0x9e6, 0xa66, 0xae6, 0xb66, 0xbe6, 0xc66, 0xce6, 0xd66, 0xde6, 0xe50,
    0xed0, 0xf20, 0x1040, 0x1090, 0x17e0, 0x1810, 0x1946, 0x19d0, 0x1a80, 0x1a90, 0x1b50, 0x1bb0,
    0x1c40, 0x1c50, 0xa620, 0xa8d0, 0xa900, 0xa9d0, 0xa9f0, 0xaa50, 0xabf0, 0xff10, 0x104a0,
    0x10d30, 0x11066, 0x110f0, 0x11136, 0x111d0, 0x112f0, 0x11450, 0x114d0, 0x11650, 0x116c0,
    0x11730, 0x118e0, 0x11950, 0x11c50, 0x11d50, 0x11da0, 0x16a60, 0x16ac0, 0x16b50, 0x1d7ce,
    0x1d7d8, 0x1d7e2, 0x1d7ec, 0x1d7f6, 0x1e140, 0x1e2f0, 0x1e950, 0x1fbf0]

def asciiDigit (c : Char) : Char :=
  match otherZeros.find? fun z => z ≤ c.toNat && c.toNat < z + 10 with
  | some z => Char.ofNat (c.toNat - z + 48)
  | none => c

def numeral (s : List Char) : List Char :=
  (Text.trimSpace s).map asciiDigit

def baseLetter? (base : Nat) : Option Char :=
  [(2, 'b'), (8, 'o'), (16, 'x')].lookup base

def digitIn? (base : Nat) (c : Char) : Option Nat :=
  (Json.hexValue? c).filter (· < base)

def digitLimit? (base : Nat) : Option Nat :=
  if base = 10 then some Json.maxDigits else none

def readInteger (base : Nat) (s : List Char) : Except Fault Int :=
  let (negative, body) := Decimal.splitSign (numeral s)
  let ds :=
    match body with
    | '0' :: letter :: rest => if some letter.toLower = baseLetter? base then rest else body
    | _ => body
  match ds.mapM (digitIn? base) with
  | none => .error (.noInteger base s)
  | some [] => .error (.noInteger base s)
  | some values =>
    if (digitLimit? base).any (· < values.length) then .error (.tooLong values.length)
    else
      let n := values.foldl (fun n d => n * base + d) 0
      .ok (if negative then -(n : Int) else n)

def withoutUnderscores (s : List Char) : List Char :=
  s.filter (· != '_')

def intValue (text : List Char) : Except Fault Int := do
  let s := withoutUnderscores text
  let (negative, s) := Decimal.splitSign s
  let magnitude ←
    match s with
    | [] => throw .emptyNumber
    | ['0'] => pure 0
    | '0' :: 'b' :: rest => readInteger 2 rest
    | '0' :: 'x' :: rest => readInteger 16 rest
    | '0' :: _ => readInteger 8 s
    | _ =>
      if s.contains ':' then do
        let parts ← (Text.split ':' s).mapM (readInteger 10)
        pure (parts.foldl (fun n d => n * 60 + d) 0)
      else readInteger 10 s
  return if negative then -magnitude else magnitude

def readNumber (s : List Char) : Except Fault Float :=
  match Decimal.readFloat? (numeral s) with
  | some x => .ok x
  | none => .error (.noNumber s)

def sixtiesValue (power : Nat) : List Float → Float → Except Fault Float
  | [], value => .ok value
  | d :: ds, value =>
    let factor := Decimal.toFloat ⟨60 ^ power, 0⟩
    if factor.isFinite then sixtiesValue (power + 1) ds (value + d * factor)
    else .error .tooLarge

def floatValue (text : List Char) : Except Fault Float := do
  let s := (withoutUnderscores text).map Char.toLower
  let (negative, body) := Decimal.splitSign s
  let magnitude ←
    if s.isEmpty then throw .emptyNumber
    else if body = ".inf".toList then pure (1.0 / 0.0)
    else if body = ".nan".toList then pure (0.0 / 0.0)
    else if body.contains ':' then do
      let parts ← (Text.split ':' body).mapM readNumber
      sixtiesValue 0 parts.reverse 0.0
    else readNumber body
  return if negative then -magnitude else magnitude

def flagValue (text : List Char) : Except Fault Bool :=
  let word := text.map Char.toLower
  match Kind.booleans.lookup (String.ofList word) with
  | some b => .ok b
  | none => .error (.noFlag word)

def momentValue (text : List Char) : Except Fault Value :=
  match readMoment? (withoutLastBreak text) with
  | none => .error .noMoment
  | some m =>
    match m.check with
    | .error fault => .error (.calendar fault)
    | .ok () => .ok (if m.time.isSome then .moment else .date)

def base64Value? (c : Char) : Option Nat :=
  if 'A' ≤ c && c ≤ 'Z' then some (c.toNat - 65)
  else if 'a' ≤ c && c ≤ 'z' then some (c.toNat - 71)
  else if c.isDigit then some (c.toNat + 4)
  else if c = '+' then some 62
  else if c = '/' then some 63
  else none

/-- The bytes of digits to the base sixty-four: four digits make three bytes. `count` digits of
the present four have been read, of which the bits in `left` are still to be used; `pads` padding
characters have followed them. Other characters are passed over. -/
def base64Bytes (count left pads : Nat) : List Char → Except Fault (List UInt8)
  | [] => if count = 0 then .ok [] else .error .malformed
  | c :: rest =>
    if c = '=' then
      if 2 ≤ count then
        if 4 ≤ count + pads + 1 then .ok [] else base64Bytes count left (pads + 1) rest
      else base64Bytes count left pads rest
    else
      match base64Value? c with
      | none => base64Bytes count left pads rest
      | some v =>
        if count = 0 then base64Bytes 1 v 0 rest
        else
          let bits := left * 64 + v
          let spare := 6 - 2 * count
          (base64Bytes ((count + 1) % 4) (bits % 2 ^ spare) 0 rest).map fun bs =>
            UInt8.ofNat (bits / 2 ^ spare) :: bs

def bytesValue (text : List Char) : Except Fault Value :=
  if text.all (·.toNat < 128) then (base64Bytes 0 0 0 text).map .bytes else .error .malformed

def scalarValue (kind : Kind) (text : String) : Except Fault Value :=
  match kind with
  | .null => .ok .null
  | .bool => (flagValue text.toList).map .bool
  | .int => (intValue text.toList).map .int
  | .float => (floatValue text.toList).map .float
  | .text => .ok (.text text)
  | .bytes => bytesValue text.toList
  | .moment => momentValue text.toList
  | _ => .error .malformed

end WorkspaceCycles.Yaml
