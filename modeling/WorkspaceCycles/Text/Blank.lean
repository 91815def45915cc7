namespace WorkspaceCycles.Text

def isSpace (c : Char) : Bool :=
  let n := c.toNat
  (9 ≤ n && n ≤ 13) || n == 32 || n == 0x85 || n == 0xa0 || n == 0x1680 ||
    (0x2000 ≤ n && n ≤ 0x200a) || n == 0x2028 || n == 0x2029 || n == 0x202f || n == 0x205f ||
    n == 0x3000

def isBlank (c : Char) : Bool :=
  isSpace c || (28 ≤ c.toNat && c.toNat ≤ 31)

def trimStart (s : List Char) : List Char :=
  s.dropWhile isBlank

def trimEnd (s : List Char) : List Char :=
  (s.reverse.dropWhile isBlank).reverse

def trim (s : List Char) : List Char :=
  trimEnd (trimStart s)

def trimSpace (s : List Char) : List Char :=
  ((s.dropWhile isSpace).reverse.dropWhile isSpace).reverse

def dropLead? [BEq α] : List α → List α → Option (List α)
  | [], s => some s
  | _ :: _, [] => none
  | a :: lead, b :: s => if a == b then dropLead? lead s else none

theorem eq_append_of_dropLead? [BEq α] [LawfulBEq α] {lead s rest : List α}
    (h : dropLead? lead s = some rest) : s = lead ++ rest := by
  fun_induction dropLead? lead s with
  | case1 s => simpa using h
  | case2 => simp at h
  | case3 a lead b s hab ih => simp [ih h, eq_of_beq hab]
  | case4 => simp at h

theorem dropLead?_append [BEq α] [LawfulBEq α] (lead rest : List α) :
    dropLead? lead (lead ++ rest) = some rest := by
  induction lead with
  | nil => rfl
  | cons a lead ih => simp [dropLead?, ih]

end WorkspaceCycles.Text
