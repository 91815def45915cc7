namespace WorkspaceCycles.Text.Utf8

inductive Reason where
  | invalidStart
  | invalidContinuation
  | unexpectedEnd
deriving DecidableEq, Repr

def Reason.message : Reason → String
  | .invalidStart => "invalid start byte"
  | .invalidContinuation => "invalid continuation byte"
  | .unexpectedEnd => "unexpected end of data"

structure DecodeError where
  start : Nat
  first : UInt8
  others : List UInt8
  reason : Reason
deriving DecidableEq, Repr

private def hexByte (b : UInt8) : String :=
  String.ofList [Nat.digitChar (b.toNat / 16), Nat.digitChar (b.toNat % 16)]

def DecodeError.message (e : DecodeError) : String :=
  let place :=
    if e.others.isEmpty then
      "byte 0x" ++ hexByte e.first ++ " in position " ++ toString e.start
    else
      "bytes in position " ++ toString e.start ++ "-" ++ toString (e.start + e.others.length)
  "'utf-8' codec can't decode " ++ place ++ ": " ++ e.reason.message

def isContinuation (b : UInt8) : Bool :=
  0x80 ≤ b && b < 0xc0

def isSecond (first b : UInt8) : Bool :=
  isContinuation b &&
    (first != 0xe0 || 0xa0 ≤ b) && (first != 0xed || b < 0xa0) &&
    (first != 0xf0 || 0x90 ≤ b) && (first != 0xf4 || b < 0x90)

structure Head where
  extra : Nat
  outcome : Except Reason Char

private def join (first : Nat) (rest : List UInt8) : Char :=
  Char.ofNat (rest.foldl (fun n b => n * 64 + b.toNat % 64) first)

def head (b : UInt8) (bs : List UInt8) : Head :=
  if b < 0x80 then ⟨0, .ok (Char.ofNat b.toNat)⟩
  else if b < 0xc2 || 0xf5 ≤ b then ⟨0, .error .invalidStart⟩
  else
    match bs with
    | [] => ⟨0, .error .unexpectedEnd⟩
    | c :: bs =>
      if !isSecond b c then ⟨0, .error .invalidContinuation⟩
      else if b < 0xe0 then ⟨1, .ok (join (b.toNat % 32) [c])⟩
      else
        match bs with
        | [] => ⟨1, .error .unexpectedEnd⟩
        | d :: bs =>
          if !isContinuation d then ⟨1, .error .invalidContinuation⟩
          else if b < 0xf0 then ⟨2, .ok (join (b.toNat % 16) [c, d])⟩
          else
            match bs with
            | [] => ⟨2, .error .unexpectedEnd⟩
            | e :: _ =>
              if !isContinuation e then ⟨2, .error .invalidContinuation⟩
              else ⟨3, .ok (join (b.toNat % 8) [c, d, e])⟩

def decodeFrom (start : Nat) : List UInt8 → Except DecodeError (List Char)
  | [] => .ok []
  | b :: bs =>
    let h := head b bs
    match h.outcome with
    | .error reason => .error ⟨start, b, bs.take h.extra, reason⟩
    | .ok c =>
      match decodeFrom (start + 1 + h.extra) (bs.drop h.extra) with
      | .ok cs => .ok (c :: cs)
      | .error e => .error e
termination_by bytes => bytes.length
decreasing_by simp only [List.length_cons, List.length_drop]; omega

def decode (bytes : List UInt8) : Except DecodeError (List Char) :=
  decodeFrom 0 bytes

def decodeLoosely : List UInt8 → List Char
  | [] => []
  | b :: bs =>
    let h := head b bs
    (match h.outcome with | .ok c => c | .error _ => '\ufffd') :: decodeLoosely (bs.drop h.extra)
termination_by bytes => bytes.length
decreasing_by simp only [List.length_cons, List.length_drop]; omega

end WorkspaceCycles.Text.Utf8
