import WorkspaceCycles.Json
import WorkspaceCycles.Decimal.Reader

/-!
Reading JSON. Beside the standard's values the reader takes `NaN`, `Infinity` and `-Infinity`; the
last of several fields of one name wins. A fault is named by its kind and by the number of
characters left where it lies, from which `Fault.message` works out the place. How many lists and
objects may be open at once is left to the caller of `readWithin`, whose own place on the stack is
not counted. Texts are made of characters, so half of a surrogate pair is read as U+FFFD.
-/

namespace WorkspaceCycles.Json

inductive Problem where
  | value
  | propertyName
  | colon
  | comma
  | unterminated
  | control
  | escape
  | unicodeEscape
  | extra
  | byteOrderMark
deriving DecidableEq, Repr

def Problem.message : Problem → String
  | .value => "Expecting value"
  | .propertyName => "Expecting property name enclosed in double quotes"
  | .colon => "Expecting ':' delimiter"
  | .comma => "Expecting ',' delimiter"
  | .unterminated => "Unterminated string starting at"
  | .control => "Invalid control character at"
  | .escape => "Invalid \\escape"
  | .unicodeEscape => "Invalid \\uXXXX escape"
  | .extra => "Extra data"
  | .byteOrderMark => "Unexpected UTF-8 BOM (decode using utf-8-sig)"

inductive Fault where
  | syntaxFault (problem : Problem) (left : Nat)
  | tooLong (digits : Nat)
  | tooDeep (kind : String)
deriving DecidableEq, Repr

def maxDigits : Nat := 4300

def tooLongMessage (digits : Nat) : String :=
  "Exceeds the limit (" ++ toString maxDigits ++ " digits) for integer string conversion: " ++
    "value has " ++ toString digits ++
    " digits; use sys.set_int_max_str_digits() to increase the limit"

def tooDeepMessage (kind : String) : String :=
  "maximum recursion depth exceeded while decoding a JSON " ++ kind ++ " from a unicode string"

def Fault.message (text : List Char) : Fault → String
  | .tooLong digits => tooLongMessage digits
  | .tooDeep kind => tooDeepMessage kind
  | .syntaxFault problem left =>
    let before := text.take (text.length - left)
    let line := before.count '\n' + 1
    let column := (before.reverse.takeWhile (· != '\n')).length + 1
    problem.message ++ ": line " ++ toString line ++ " column " ++ toString column ++
      " (char " ++ toString before.length ++ ")"

/-- A thing read from the head of a text of `bound` characters, and the text behind it. -/
structure Read (α : Type) (bound : Nat) where
  value : α
  rest : List Char
  shorter : rest.length < bound

abbrev Result (α : Type) (bound : Nat) := Except Fault (Read α bound)

def isSpace (c : Char) : Bool :=
  c == ' ' || c == '\t' || c == '\n' || c == '\r'

def skip (s : List Char) : List Char :=
  s.dropWhile isSpace

theorem length_skip_le (s : List Char) : (skip s).length ≤ s.length :=
  (List.dropWhile_sublist isSpace).length_le

def hexValue? (c : Char) : Option Nat :=
  if c.isDigit then some (c.toNat - 48)
  else if 'a' ≤ c && c ≤ 'f' then some (c.toNat - 87)
  else if 'A' ≤ c && c ≤ 'F' then some (c.toNat - 55)
  else none

def hex4? (a b c d : Char) : Option Nat := do
  let a ← hexValue? a
  let b ← hexValue? b
  let c ← hexValue? c
  let d ← hexValue? d
  return ((a * 16 + b) * 16 + c) * 16 + d

def isHighSurrogate (n : Nat) : Bool := 0xd800 ≤ n && n < 0xdc00

def isLowSurrogate (n : Nat) : Bool := 0xdc00 ≤ n && n < 0xe000

def unitChar (n : Nat) : Char :=
  if isHighSurrogate n || isLowSurrogate n then '\ufffd' else Char.ofNat n

def pairChar (high low : Nat) : Char :=
  Char.ofNat (0x10000 + (high - 0xd800) * 0x400 + (low - 0xdc00))

def hexUnit (s : List Char) : Result Nat s.length :=
  match s with
  | a :: b :: c :: d :: e :: rest =>
    match hex4? a b c d with
    | some n => .ok ⟨n, e :: rest, by simp only [List.length_cons]; omega⟩
    | none => .error (.syntaxFault .unicodeEscape (rest.length + 6))
  | s => .error (.syntaxFault .unicodeEscape (s.length + 1))

def readUnit (s : List Char) : Result Char s.length :=
  match hexUnit s with
  | .error f => .error f
  | .ok ⟨n, rest, h⟩ =>
    if isHighSurrogate n then
      match rest with
      | '\\' :: 'u' :: more =>
        match hexUnit more with
        | .error f => .error f
        | .ok ⟨low, rest', h'⟩ =>
          if isLowSurrogate low then
            .ok ⟨pairChar n low, rest', by simp only [List.length_cons] at h; omega⟩
          else .ok ⟨unitChar n, '\\' :: 'u' :: more, h⟩
      | rest => .ok ⟨unitChar n, rest, h⟩
    else .ok ⟨unitChar n, rest, h⟩

def simpleEscape? (c : Char) : Option Char :=
  if c == '"' || c == '\\' || c == '/' then some c
  else if c == 'b' then some '\x08'
  else if c == 'f' then some '\x0c'
  else if c == 'n' then some '\n'
  else if c == 'r' then some '\r'
  else if c == 't' then some '\t'
  else none

def Read.cons {bound bound' : Nat} (c : Char) (r : Read (List Char) bound) (h : bound ≤ bound') :
    Read (List Char) bound' :=
  ⟨c :: r.value, r.rest, Nat.lt_of_lt_of_le r.shorter h⟩

def readChars (start : Nat) (s : List Char) : Result (List Char) s.length :=
  match s with
  | [] => .error (.syntaxFault .unterminated start)
  | c :: rest =>
    if c = '"' then .ok ⟨[], rest, Nat.lt_succ_self _⟩
    else if c = '\\' then
      match rest with
      | [] => .error (.syntaxFault .unterminated start)
      | e :: rest =>
        if e = 'u' then
          match readUnit rest with
          | .error f => .error f
          | .ok r =>
            have h : r.rest.length < (c :: e :: rest).length :=
              Nat.lt_succ_of_lt (Nat.lt_succ_of_lt r.shorter)
            (readChars start r.rest).map fun more => more.cons r.value (Nat.le_of_lt h)
        else
          match simpleEscape? e with
          | none => .error (.syntaxFault .escape (rest.length + 2))
          | some ch =>
            have h : rest.length < (c :: e :: rest).length := Nat.lt_succ_of_lt (Nat.lt_succ_self _)
            (readChars start rest).map fun more => more.cons ch (Nat.le_of_lt h)
    else if c.toNat ≤ 0x1f then .error (.syntaxFault .control (rest.length + 1))
    else
      have h : rest.length < (c :: rest).length := Nat.lt_succ_self _
      (readChars start rest).map fun more => more.cons c (Nat.le_of_lt h)
termination_by s.length
decreasing_by all_goals exact h

def readText (s : List Char) : Result String s.length :=
  match readChars (s.length + 1) s with
  | .error f => .error f
  | .ok ⟨chs, rest, h⟩ => .ok ⟨String.ofList chs, rest, h⟩

structure Numeral where
  negative : Bool
  whole : List Char
  fraction : List Char
  exponent : Option Int
deriving Repr

def splitFraction (s : List Char) : List Char × List Char :=
  match s with
  | '.' :: d :: rest =>
    if d.isDigit then
      ((d :: rest).takeWhile Char.isDigit, (d :: rest).dropWhile Char.isDigit)
    else ([], s)
  | _ => ([], s)

def splitExponent (s : List Char) : Option Int × List Char :=
  match s with
  | e :: rest =>
    let (negative, body) := Decimal.splitSign rest
    let ds := body.takeWhile Char.isDigit
    if (e == 'e' || e == 'E') && !ds.isEmpty then
      let n : Int := Decimal.digitsValue ds
      (some (if negative then -n else n), body.dropWhile Char.isDigit)
    else (none, s)
  | [] => (none, s)

theorem length_splitFraction_le (s : List Char) : (splitFraction s).2.length ≤ s.length := by
  unfold splitFraction
  split
  · split
    · exact Nat.le_trans (List.dropWhile_sublist _).length_le (by simp)
    · simp
  · simp

theorem length_splitExponent_le (s : List Char) : (splitExponent s).2.length ≤ s.length := by
  cases s with
  | nil => simp [splitExponent]
  | cons e rest =>
    have h := Decimal.length_splitSign_le rest
    have h' := (List.dropWhile_sublist (l := (Decimal.splitSign rest).2) Char.isDigit).length_le
    simp only [splitExponent]
    split
    · simp only [List.length_cons]; omega
    · simp

def splitWhole (s : List Char) : List Char × List Char :=
  match s with
  | '0' :: rest => (['0'], rest)
  | s => (s.takeWhile Char.isDigit, s.dropWhile Char.isDigit)

theorem splitWhole_append (s : List Char) : (splitWhole s).1 ++ (splitWhole s).2 = s := by
  unfold splitWhole
  split <;> simp

theorem length_splitWhole_lt {s : List Char} (h : (splitWhole s).1.isEmpty = false) :
    (splitWhole s).2.length < s.length := by
  have := congrArg List.length (splitWhole_append s)
  cases hs : (splitWhole s).1 with
  | nil => simp [hs] at h
  | cons => simp only [hs, List.length_append, List.length_cons] at this; omega

def Numeral.value (n : Numeral) : Except Fault Json :=
  match n.fraction, n.exponent with
  | [], none =>
    if maxDigits < n.whole.length then .error (.tooLong n.whole.length)
    else
      let v : Int := Decimal.digitsValue n.whole
      .ok (.int (if n.negative then -v else v))
  | fraction, exponent =>
    let v := Decimal.toFloat
      ⟨Decimal.digitsValue (n.whole ++ fraction), exponent.getD 0 - fraction.length⟩
    .ok (.float (if n.negative then -v else v))

def readUnsigned (start : Nat) (negative : Bool) (s : List Char) : Result Json s.length :=
  let whole := splitWhole s
  if h : whole.1.isEmpty then .error (.syntaxFault .value start)
  else
    let fraction := splitFraction whole.2
    let exponent := splitExponent fraction.2
    match Numeral.value ⟨negative, whole.1, fraction.1, exponent.1⟩ with
    | .error f => .error f
    | .ok v => .ok ⟨v, exponent.2, by
        have h₁ := length_splitWhole_lt (s := s) (by simpa [whole] using h)
        have h₂ := length_splitFraction_le whole.2
        have h₃ := length_splitExponent_le fraction.2
        simp only [exponent, fraction, whole] at *
        omega⟩

def readNumber (s : List Char) : Result Json s.length :=
  match s with
  | '-' :: rest =>
    match readUnsigned (rest.length + 1) true rest with
    | .error f => .error f
    | .ok ⟨v, more, h⟩ => .ok ⟨v, more, by simp only [List.length_cons]; omega⟩
  | s => readUnsigned s.length false s

def words : List (List Char × Json) :=
  [("null".toList, .null), ("true".toList, .bool true), ("false".toList, .bool false),
   ("NaN".toList, .float (0.0 / 0.0)), ("Infinity".toList, .float (1.0 / 0.0)),
   ("-Infinity".toList, .float (-1.0 / 0.0))]

def splitWord? (s : List Char) : Option (Json × List Char) :=
  words.findSome? fun w => if w.1.isPrefixOf s then some (w.2, s.drop w.1.length) else none

theorem length_splitWord?_lt {s rest : List Char} {v : Json} (h : splitWord? s = some (v, rest)) :
    rest.length < s.length := by
  obtain ⟨w, hw, h⟩ := List.exists_of_findSome?_eq_some h
  split at h
  · rename_i hp
    obtain ⟨t, rfl⟩ := List.isPrefixOf_iff_prefix.1 hp
    have hpos : 0 < w.1.length := by
      revert hw
      simp only [words, List.mem_cons, List.not_mem_nil, or_false]
      rintro (rfl | rfl | rfl | rfl | rfl | rfl) <;> decide
    simp only [Option.some.injEq, Prod.mk.injEq] at h
    rw [← h.2]
    simp only [List.length_drop, List.length_append]
    omega
  · simp at h

mutual

def readValue (levels : Nat) (s : List Char) : Result Json s.length :=
  match hs : s with
  | [] => .error (.syntaxFault .value 0)
  | c :: rest =>
    if c = '"' then
      match readText rest with
      | .error f => .error f
      | .ok ⟨t, more, h⟩ => .ok ⟨.text t, more, by simp only [List.length_cons]; omega⟩
    else if c = '[' then
      if levels = 0 then .error (.tooDeep "array") else
      match hr : skip rest with
      | ']' :: more => .ok ⟨.list [], more, by
          have := length_skip_le rest
          rw [hr] at this
          simp only [List.length_cons] at *
          omega⟩
      | more =>
        have : more.length < rest.length + 1 := by
          have := length_skip_le rest
          rw [hr] at this
          omega
        match readItems (levels - 1) more with
        | .error f => .error f
        | .ok ⟨items, more', h⟩ => .ok ⟨.list items, more', by simp only [List.length_cons]; omega⟩
    else if c = '\x7b' then
      if levels = 0 then .error (.tooDeep "object") else
      match hr : skip rest with
      | '\x7d' :: more => .ok ⟨.object [], more, by
          have := length_skip_le rest
          rw [hr] at this
          simp only [List.length_cons] at *
          omega⟩
      | more =>
        have : more.length < rest.length + 1 := by
          have := length_skip_le rest
          rw [hr] at this
          omega
        match readFields (levels - 1) more with
        | .error f => .error f
        | .ok ⟨fields, more', h⟩ =>
          .ok ⟨.object (Assoc.ofPairs fields), more', by simp only [List.length_cons]; omega⟩
    else
      match hw : splitWord? s with
      | some (v, more) => .ok ⟨v, more, by rw [← hs]; exact length_splitWord?_lt hw⟩
      | none => readNumber (c :: rest)
termination_by (s.length, 0)

def readItems (levels : Nat) (s : List Char) : Result (List Json) s.length :=
  match readValue levels s with
  | .error f => .error f
  | .ok ⟨v, more, h⟩ =>
    match hr : skip more with
    | ']' :: rest => .ok ⟨[v], rest, by
        have := length_skip_le more
        rw [hr] at this
        simp only [List.length_cons] at *
        omega⟩
    | ',' :: rest =>
      have : (skip rest).length < s.length := by
        have h₁ := length_skip_le more
        have h₂ := length_skip_le rest
        rw [hr] at h₁
        simp only [List.length_cons] at *
        omega
      match readItems levels (skip rest) with
      | .error f => .error f
      | .ok ⟨vs, rest', h'⟩ => .ok ⟨v :: vs, rest', by omega⟩
    | rest => .error (.syntaxFault .comma rest.length)
termination_by (s.length, 1)

def readFields (levels : Nat) (s : List Char) : Result (List (String × Json)) s.length :=
  match s with
  | '"' :: rest =>
    match readText rest with
    | .error f => .error f
    | .ok ⟨k, more, h⟩ =>
      match hc : skip more with
      | ':' :: body =>
        have hb : (skip body).length < rest.length + 1 := by
          have h₁ := length_skip_le more
          have h₂ := length_skip_le body
          rw [hc] at h₁
          simp only [List.length_cons] at *
          omega
        match readValue levels (skip body) with
        | .error f => .error f
        | .ok ⟨v, more', h'⟩ =>
          match hr : skip more' with
          | '\x7d' :: rest' => .ok ⟨[(k, v)], rest', by
              have := length_skip_le more'
              rw [hr] at this
              simp only [List.length_cons] at *
              omega⟩
          | ',' :: rest' =>
            have : (skip rest').length < rest.length + 1 := by
              have h₁ := length_skip_le more'
              have h₂ := length_skip_le rest'
              rw [hr] at h₁
              simp only [List.length_cons] at *
              omega
            match readFields levels (skip rest') with
            | .error f => .error f
            | .ok ⟨fields, more'', h''⟩ =>
              .ok ⟨(k, v) :: fields, more'', by simp only [List.length_cons]; omega⟩
          | rest' => .error (.syntaxFault .comma rest'.length)
      | body => .error (.syntaxFault .colon body.length)
  | s => .error (.syntaxFault .propertyName s.length)
termination_by (s.length, 1)

end

def readWithin (levels : Nat) (s : List Char) : Except Fault Json :=
  match s with
  | '\ufeff' :: _ => .error (.syntaxFault .byteOrderMark s.length)
  | s =>
    match readValue levels (skip s) with
    | .error f => .error f
    | .ok ⟨v, rest, _⟩ =>
      match skip rest with
      | [] => .ok v
      | more => .error (.syntaxFault .extra more.length)

/-- A text opens no more lists and objects than it has characters, so that nothing is too deep. -/
def read (s : List Char) : Except Fault Json :=
  readWithin s.length s

end WorkspaceCycles.Json
