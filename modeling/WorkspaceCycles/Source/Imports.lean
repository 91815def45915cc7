import WorkspaceCycles.Source.Comments
import WorkspaceCycles.Text.Word

/-!
Imports in sources. Three forms are looked for, each in a scan of its own: the import and export
statements that begin a line, calls of `require`, and calls of `import`. The specifiers are given
in the order in which they stand in the text.
-/

namespace WorkspaceCycles.Source

/-- A specifier, with the number of characters from it to the end of the text. -/
structure Hit where
  left : Nat
  specifier : List Char
deriving DecidableEq, Repr

def isQuote (c : Char) : Bool :=
  c == '\'' || c == '"'

def isClauseChar (c : Char) : Bool :=
  Text.isWord c || Text.isBlank c || ['*', '\x7b', '\x7d', ',', '$'].contains c

def isSpecifierChar (c : Char) : Bool :=
  !isQuote c && c != '\n'

def quotedSpecifier? (s : List Char) : Option (Hit × List Char) :=
  match s with
  | opening :: rest =>
    let specifier := rest.takeWhile isSpecifierChar
    match rest.dropWhile isSpecifierChar with
    | closing :: more =>
      if isQuote opening && isQuote closing && specifier != [] then
        some (⟨rest.length, specifier⟩, more)
      else none
    | [] => none
  | [] => none

theorem length_quotedSpecifier?_lt {s rest : List Char} {hit : Hit}
    (h : quotedSpecifier? s = some (hit, rest)) : rest.length < s.length := by
  unfold quotedSpecifier? at h
  split at h
  · rename_i q r
    have hle := (List.dropWhile_sublist (l := r) isSpecifierChar).length_le
    simp only at h
    split at h
    · rename_i hd
      rw [hd] at hle
      split at h
      · simp only [Option.some.injEq, Prod.mk.injEq] at h
        rw [← h.2]
        simp only [List.length_cons] at *
        omega
      · simp at h
    · simp at h
  · simp at h

/-- Nothing but blanks, or a clause between blanks with the word `from` and blanks after it. -/
def isGap (s : List Char) : Bool :=
  let blanks := s.reverse.takeWhile Text.isBlank
  let before := s.reverse.dropWhile Text.isBlank
  if before.isEmpty then !blanks.isEmpty
  else
    match blanks, Text.dropLead? "from".toList.reverse before with
    | _ :: _, some clause =>
      3 ≤ clause.length && clause.head?.any Text.isBlank && clause.getLast?.any Text.isBlank
    | _, _ => false

/-- What stands between keyword and specifier says whether types alone are imported; it may fail
to be a clause at all. -/
def typeOnly? (s : List Char) : Option Bool :=
  let behindType :=
    match s with
    | c :: _ => if Text.isBlank c then Text.dropLead? "type".toList (Text.trimStart s) else none
    | [] => none
  if behindType.any isGap then some true
  else if isGap s then some false
  else none

theorem length_dropLead?_le {lead s rest : List Char} (h : Text.dropLead? lead s = some rest) :
    rest.length ≤ s.length := by
  rw [Text.eq_append_of_dropLead? h, List.length_append]
  omega

def afterKeyword? (s : List Char) : Option (List Char) :=
  match Text.dropLead? "import".toList s with
  | some rest => some rest
  | none => Text.dropLead? "export".toList s

theorem length_afterKeyword?_le {s rest : List Char} (h : afterKeyword? s = some rest) :
    rest.length ≤ s.length := by
  unfold afterKeyword? at h
  split at h
  · rename_i hd
    exact Option.some.inj h ▸ length_dropLead?_le hd
  · exact length_dropLead?_le h

def statement? (s : List Char) : Option ((Bool × Hit) × List Char) := do
  let clause ← afterKeyword? (Text.trimStart s)
  let typeOnly ← typeOnly? (clause.takeWhile isClauseChar)
  let (hit, rest) ← quotedSpecifier? (clause.dropWhile isClauseChar)
  return ((typeOnly, hit), rest)

theorem length_statement?_lt {s rest : List Char} {found : Bool × Hit}
    (h : statement? s = some (found, rest)) : rest.length < s.length := by
  simp only [statement?, bind, Option.bind_eq_some_iff, pure, Option.some.injEq,
    Prod.mk.injEq] at h
  obtain ⟨clause, hc, _, _, ⟨hit, r⟩, hq, _, rfl⟩ := h
  have h₁ := length_quotedSpecifier?_lt hq
  have h₂ := (List.dropWhile_sublist (l := clause) isClauseChar).length_le
  have h₃ := length_afterKeyword?_le hc
  have h₄ := (List.dropWhile_sublist (l := s) Text.isBlank).length_le
  simp only [Text.trimStart] at h₃
  simp only
  omega

def statements (s : List Char) : List (Bool × Hit) :=
  match hs : statement? s with
  | some (found, rest) =>
    found :: match hl : (splitLine rest).2 with
      | some more =>
        have := Nat.lt_trans (length_splitLine_lt hl) (length_statement?_lt hs)
        statements more
      | none => []
  | none =>
    match hl : (splitLine s).2 with
    | some more =>
      have := length_splitLine_lt hl
      statements more
    | none => []
termination_by s.length

theorem statements_of_some {s rest : List Char} {found : Bool × Hit}
    (h : statement? s = some (found, rest)) :
    statements s = found :: (splitLine rest).2.elim [] statements := by
  rw [statements]
  split
  · rename_i found' rest' h'
    rw [h] at h'
    cases h'
    congr 1
    split <;> rename_i hl <;> simp only [hl, Option.elim]
  · rename_i h'
    rw [h] at h'
    cases h'

theorem statements_of_none {s : List Char} (h : statement? s = none) :
    statements s = (splitLine s).2.elim [] statements := by
  rw [statements]
  split
  · rename_i h'
    rw [h] at h'
    cases h'
  · split <;> rename_i hl <;> simp only [hl, Option.elim]

def argument? (s : List Char) : Option (Hit × List Char) := do
  let (hit, rest) ← quotedSpecifier? (Text.trimStart s)
  let rest ← Text.dropLead? [')'] (Text.trimStart rest)
  return (hit, rest)

theorem length_argument?_lt {s rest : List Char} {hit : Hit}
    (h : argument? s = some (hit, rest)) : rest.length < s.length := by
  simp only [argument?, bind, Option.bind_eq_some_iff, pure, Option.some.injEq,
    Prod.mk.injEq] at h
  obtain ⟨⟨_, r⟩, hq, r', hd, _, rfl⟩ := h
  have h₁ := length_quotedSpecifier?_lt hq
  have h₂ := length_dropLead?_le hd
  have h₃ := (List.dropWhile_sublist (l := s) Text.isBlank).length_le
  have h₄ := (List.dropWhile_sublist (l := r) Text.isBlank).length_le
  simp only [Text.trimStart] at h₁ h₂
  omega

/-- The calls of a function of one argument. Its name must not be the end of a longer one;
`inWord` tells whether the character before the text belongs to a name. -/
def calls (name : List Char) (inWord : Bool) (s : List Char) : List Hit :=
  match s with
  | [] => []
  | c :: rest =>
    match h : if inWord then none else Text.dropLead? (name ++ ['(']) (c :: rest) with
    | some body =>
      match ha : argument? body with
      | some (hit, more) =>
        have : more.length < rest.length + 1 := by
          have h₁ := length_argument?_lt ha
          split at h
          · simp at h
          · have h₂ := length_dropLead?_le h
            simp only [List.length_cons] at h₂
            omega
        hit :: calls name false more
      | none => calls name (Text.isWord c) rest
    | none => calls name (Text.isWord c) rest
termination_by s.length

def specifiers (source : List Char) (skipTypeOnly skipDynamicImports : Bool) : List String :=
  let s := dropComments source
  let static := ((statements s).filter fun found => !(found.1 && skipTypeOnly)).map (·.2)
  let required := calls "require".toList false s
  let dynamic := if skipDynamicImports then [] else calls "import".toList false s
  let hits := (static ++ required ++ dynamic).mergeSort fun a b => b.left ≤ a.left
  hits.map fun h => String.ofList h.specifier

end WorkspaceCycles.Source
