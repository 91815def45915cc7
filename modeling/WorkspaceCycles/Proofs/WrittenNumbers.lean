import Mathlib.Algebra.Group.Nat.Defs
import WorkspaceCycles.Proofs.WrittenTexts

namespace WorkspaceCycles.Json

def EndsNumber (rest : List Char) : Prop :=
  ∀ c ∈ rest.head?, c.isDigit = false ∧ c ≠ '.' ∧ c ≠ 'e' ∧ c ≠ 'E'

theorem toDigits_ne_zero_cons {n : Nat} (h : 0 < n) (ds : List Char) :
    Nat.toDigits 10 n ≠ '0' :: ds := by
  induction n using Nat.strongRecOn generalizing ds with
  | ind n ih =>
    intro heq
    by_cases hn : n < 10
    · rw [Nat.toDigits_of_lt_base hn, List.cons.injEq] at heq
      have hzero := Nat.toNat_digitChar_of_lt_ten hn
      rw [heq.1] at hzero
      change 48 = 48 + n at hzero
      omega
    · rw [Nat.toDigits_of_base_le (by decide) (Nat.le_of_not_lt hn), List.append_eq_cons_iff] at heq
      rcases heq with ⟨hnil, -⟩ | ⟨ds', hcons, -⟩
      · exact Nat.toDigits_ne_nil hnil
      · exact ih (n / 10) (by omega) (by omega) ds' hcons

theorem digitsValue_toDigits (n : Nat) : Decimal.digitsValue (Nat.toDigits 10 n) = n := by
  calc
    Decimal.digitsValue (Nat.toDigits 10 n) = Nat.ofDigitChars 10 (Nat.toDigits 10 n) 0 := by
      simp only [Decimal.digitsValue, Nat.ofDigitChars, Nat.mul_comm 10]
      rfl
    _ = n := Nat.ofDigitChars_toDigits (by decide) (by decide)

theorem takeWhile_isDigit_toDigits {n : Nat} {rest : List Char}
    (h : ∀ c ∈ rest.head?, c.isDigit = false) :
    (Nat.toDigits 10 n ++ rest).takeWhile Char.isDigit = Nat.toDigits 10 n ∧
      (Nat.toDigits 10 n ++ rest).dropWhile Char.isDigit = rest := by
  have hdigits : ∀ c ∈ Nat.toDigits 10 n, c.isDigit = true :=
    fun c => Nat.isDigit_of_mem_toDigits (by decide) (by decide)
  rw [List.takeWhile_append_of_pos hdigits, List.dropWhile_append_of_pos hdigits]
  cases rest with
  | nil => simp
  | cons c rest => simp [h c rfl]

theorem splitWhole_toDigits {n : Nat} {rest : List Char} (h : EndsNumber rest) :
    splitWhole (Nat.toDigits 10 n ++ rest) = (Nat.toDigits 10 n, rest) := by
  obtain ⟨htake, hdrop⟩ := takeWhile_isDigit_toDigits (n := n) fun c hc => (h c hc).1
  by_cases hn : n = 0
  · subst hn
    rfl
  · unfold splitWhole
    split
    · rename_i heq
      rcases List.append_eq_cons_iff.mp heq with ⟨hnil, -⟩ | ⟨ds, hcons, -⟩
      · exact absurd hnil Nat.toDigits_ne_nil
      · exact absurd hcons (toDigits_ne_zero_cons (Nat.pos_of_ne_zero hn) ds)
    · rw [htake, hdrop]

theorem splitFraction_eq_self {rest : List Char} (h : EndsNumber rest) :
    splitFraction rest = ([], rest) := by
  unfold splitFraction
  split
  · exact absurd rfl (h '.' rfl).2.1
  · rfl

theorem splitExponent_eq_self {rest : List Char} (h : EndsNumber rest) :
    splitExponent rest = (none, rest) := by
  cases rest with
  | nil => rfl
  | cons c rest =>
    obtain ⟨-, -, he, he'⟩ := h c rfl
    simp [splitExponent, he, he']

theorem readUnsigned_toDigits (start : Nat) (negative : Bool) {n : Nat} (hn : n < 10 ^ maxDigits)
    {rest : List Char} (h : EndsNumber rest) :
    (readUnsigned start negative (Nat.toDigits 10 n ++ rest)).Gives
      (.int (if negative then -n else n)) rest := by
  have hlong : ¬maxDigits < (Nat.toDigits 10 n).length :=
    Nat.not_lt.mpr ((Nat.length_toDigits_le_iff (by decide) (by decide)).mpr hn)
  have hempty : (Nat.toDigits 10 n).isEmpty = false :=
    List.isEmpty_eq_false_iff.mpr Nat.toDigits_ne_nil
  unfold readUnsigned
  simp only [splitWhole_toDigits h, splitFraction_eq_self h, splitExponent_eq_self h, hempty,
    Numeral.value, hlong, if_false, digitsValue_toDigits]
  exact ⟨_, rfl⟩

theorem ne_of_isDigit {c : Char} (h : c.isDigit = true) (d : Char) (hd : d.isDigit = false) :
    d ≠ c := by
  rintro rfl
  rw [h] at hd
  cases hd

theorem splitWord?_eq_none_of_isDigit {c : Char} (h : c.isDigit = true) (rest : List Char) :
    splitWord? (c :: rest) = none ∧ splitWord? ('-' :: c :: rest) = none := by
  have hne := ne_of_isDigit h
  constructor
  · simp [splitWord?, words, hne 'n' rfl, hne 't' rfl, hne 'f' rfl, hne 'N' rfl, hne 'I' rfl,
      hne '-' rfl]
  · simp [splitWord?, words, hne 'I' rfl]

theorem readNumber_of_ne_minus {c : Char} (h : c ≠ '-') (rest : List Char) :
    readNumber (c :: rest) = readUnsigned (c :: rest).length false (c :: rest) := by
  rw [readNumber]
  intro rest' heq
  exact h (List.cons.inj heq).1

theorem readNumber_minus {rest more : List Char} {v : Json}
    (h : (readUnsigned (rest.length + 1) true rest).Gives v more) :
    (readNumber ('-' :: rest)).Gives v more := by
  obtain ⟨_, h⟩ := h
  unfold readNumber
  simp only [h]
  exact ⟨_, rfl⟩

theorem readValue_number (levels : Nat) {c : Char} {rest more : List Char} {v : Json}
    (hc : c ≠ '"' ∧ c ≠ '[' ∧ c ≠ '\x7b') (hw : splitWord? (c :: rest) = none)
    (h : (readNumber (c :: rest)).Gives v more) : (readValue levels (c :: rest)).Gives v more := by
  obtain ⟨hquote, hlist, hobject⟩ := hc
  rw [readValue.eq_def]
  simp only [hquote, hlist, hobject, if_false]
  split
  · rename_i h'
    rw [hw] at h'
    cases h'
  · exact h

theorem exists_toDigits_eq_cons (n : Nat) :
    ∃ d ds, Nat.toDigits 10 n = d :: ds ∧ d.isDigit = true := by
  obtain ⟨d, ds, h⟩ := List.exists_cons_of_ne_nil (Nat.toDigits_ne_nil (n := n) (b := 10))
  have hd : d ∈ Nat.toDigits 10 n := h ▸ List.mem_cons_self
  exact ⟨d, ds, h, Nat.isDigit_of_mem_toDigits (by decide) (by decide) hd⟩

theorem readValue_toDigits (levels : Nat) {n : Nat} (hn : n < 10 ^ maxDigits) {rest : List Char}
    (h : EndsNumber rest) :
    (readValue levels (Nat.toDigits 10 n ++ rest)).Gives (.int n) rest := by
  have hread := readUnsigned_toDigits (Nat.toDigits 10 n ++ rest).length false hn h
  obtain ⟨d, ds, hdigits, hd⟩ := exists_toDigits_eq_cons n
  rw [hdigits, List.cons_append] at hread ⊢
  have hne := ne_of_isDigit hd
  refine readValue_number levels ?_ (splitWord?_eq_none_of_isDigit hd _).1 ?_
  · exact ⟨(hne _ rfl).symm, (hne _ rfl).symm, (hne _ rfl).symm⟩
  · rwa [readNumber_of_ne_minus (hne '-' rfl).symm]

theorem readValue_minus_toDigits (levels : Nat) {n : Nat} (hn : n < 10 ^ maxDigits)
    {rest : List Char} (h : EndsNumber rest) :
    (readValue levels ('-' :: (Nat.toDigits 10 n ++ rest))).Gives (.int (-n)) rest := by
  have hread := readUnsigned_toDigits ((Nat.toDigits 10 n ++ rest).length + 1) true hn h
  obtain ⟨d, ds, hdigits, hd⟩ := exists_toDigits_eq_cons n
  refine readValue_number levels (by decide) ?_ (readNumber_minus hread)
  rw [hdigits]
  exact (splitWord?_eq_none_of_isDigit hd _).2

theorem readValue_writeInt (levels : Nat) {n : Int} (hn : n.natAbs < 10 ^ maxDigits)
    {rest : List Char} (h : EndsNumber rest) :
    (readValue levels (writeInt n ++ rest)).Gives (.int n) rest := by
  cases n with
  | ofNat n => exact readValue_toDigits levels hn h
  | negSucc n => exact readValue_minus_toDigits levels hn h

end WorkspaceCycles.Json
