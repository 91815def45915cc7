import Mathlib.Data.Nat.Init
import WorkspaceCycles.Json.Reader
import WorkspaceCycles.Json.Writer

namespace WorkspaceCycles.Json

variable {α : Type} {bound : Nat}

def Result.Gives (r : Result α bound) (v : α) (rest : List Char) : Prop :=
  ∃ h, r = .ok ⟨v, rest, h⟩

theorem hexValue?_digitChar {d : Nat} (h : d < 16) : hexValue? (Nat.digitChar d) = some d := by
  revert d
  decide

theorem hexDigits_four (n : Nat) :
    Text.hexDigits 4 n =
      [Nat.digitChar (n / 4096 % 16), Nat.digitChar (n / 256 % 16), Nat.digitChar (n / 16 % 16),
        Nat.digitChar (n % 16)] := by
  simp [Text.hexDigits, List.range, List.range.loop, Nat.shiftRight_eq_div_pow]

theorem hexUnit_hexDigits {n : Nat} (h : n < 0x10000) {more : List Char} (hm : more ≠ []) :
    (hexUnit (Text.hexDigits 4 n ++ more)).Gives n more := by
  obtain ⟨e, more, rfl⟩ := List.exists_cons_of_ne_nil hm
  have hsum : ((n / 4096 % 16 * 16 + n / 256 % 16) * 16 + n / 16 % 16) * 16 + n % 16 = n := by
    omega
  have hread : hex4? (Nat.digitChar (n / 4096 % 16)) (Nat.digitChar (n / 256 % 16))
      (Nat.digitChar (n / 16 % 16)) (Nat.digitChar (n % 16)) = some n := by
    simp only [hex4?, hexValue?_digitChar (Nat.mod_lt _ (by decide : 16 > 0)), Option.bind_eq_bind,
      Option.bind_some, Option.pure_def, hsum]
  rw [hexDigits_four]
  unfold hexUnit
  simp only [List.cons_append, List.nil_append, hread]
  exact ⟨_, rfl⟩

theorem isSurrogate_toNat_eq_false (c : Char) :
    isHighSurrogate c.toNat = false ∧ isLowSurrogate c.toNat = false := by
  have h : c.toNat.isValidChar := c.valid
  simp only [Nat.isValidChar] at h
  simp only [isHighSurrogate, isLowSurrogate, Bool.and_eq_false_iff, decide_eq_false_iff_not]
  omega

theorem unitChar_toNat (c : Char) : unitChar c.toNat = c := by
  obtain ⟨hhigh, hlow⟩ := isSurrogate_toNat_eq_false c
  simp only [unitChar, hhigh, hlow, Bool.or_self, Bool.false_eq_true, if_false, Char.ofNat_toNat]

theorem readUnit_hexDigits {c : Char} (h : c.toNat < 0x10000) {more : List Char} (hm : more ≠ []) :
    (readUnit (Text.hexDigits 4 c.toNat ++ more)).Gives c more := by
  obtain ⟨hlt, hunit⟩ := hexUnit_hexDigits h hm
  unfold readUnit
  simp only [hunit, (isSurrogate_toNat_eq_false c).1, Bool.false_eq_true, if_false, unitChar_toNat]
  exact ⟨hlt, rfl⟩

theorem isHighSurrogate_iff {n : Nat} : isHighSurrogate n = true ↔ 0xd800 ≤ n ∧ n < 0xdc00 := by
  simp only [isHighSurrogate, Bool.and_eq_true, decide_eq_true_eq]

theorem isLowSurrogate_iff {n : Nat} : isLowSurrogate n = true ↔ 0xdc00 ≤ n ∧ n < 0xe000 := by
  simp only [isLowSurrogate, Bool.and_eq_true, decide_eq_true_eq]

theorem readUnit_surrogates {high low : Nat} (hh : isHighSurrogate high) (hl : isLowSurrogate low)
    {more : List Char} (hm : more ≠ []) :
    (readUnit (Text.hexDigits 4 high ++ (escapeUnit low ++ more))).Gives (pairChar high low)
      more := by
  have hhigh : high < 0x10000 := Nat.lt_trans (isHighSurrogate_iff.mp hh).2 (by decide)
  have hlow : low < 0x10000 := Nat.lt_trans (isLowSurrogate_iff.mp hl).2 (by decide)
  obtain ⟨_, hunit⟩ :=
    hexUnit_hexDigits hhigh (List.cons_ne_nil '\\' ('u' :: (Text.hexDigits 4 low ++ more)))
  obtain ⟨_, hunit'⟩ := hexUnit_hexDigits hlow hm
  have hsecond : escapeUnit low ++ more = '\\' :: 'u' :: (Text.hexDigits 4 low ++ more) := rfl
  rw [hsecond]
  unfold readUnit
  simp only [hunit, hh, if_true, hunit', hl]
  exact ⟨_, rfl⟩

theorem pairChar_units {c : Char} (h : 0x10000 ≤ c.toNat) :
    pairChar (0xd800 + (c.toNat - 0x10000) / 0x400) (0xdc00 + (c.toNat - 0x10000) % 0x400) = c := by
  have hsum : 0x10000 + (0xd800 + (c.toNat - 0x10000) / 0x400 - 0xd800) * 0x400 +
      (0xdc00 + (c.toNat - 0x10000) % 0x400 - 0xdc00) = c.toNat := by
    omega
  rw [pairChar, hsum, Char.ofNat_toNat]

theorem isSurrogate_units (c : Char) :
    isHighSurrogate (0xd800 + (c.toNat - 0x10000) / 0x400) ∧
      isLowSurrogate (0xdc00 + (c.toNat - 0x10000) % 0x400) := by
  have h : c.toNat.isValidChar := c.valid
  simp only [Nat.isValidChar] at h
  rw [isHighSurrogate_iff, isLowSurrogate_iff]
  omega

inductive IsEscape (c : Char) : List Char → Prop where
  | plain (hquote : c ≠ '"') (hslash : c ≠ '\\') (h : 0x20 ≤ c.toNat ∧ c.toNat < 0x7f) :
    IsEscape c [c]
  | named {e : Char} (hu : e ≠ 'u') (he : simpleEscape? e = some c) : IsEscape c ['\\', e]
  | unit (h : c.toNat < 0x10000) : IsEscape c (escapeUnit c.toNat)
  | units (h : 0x10000 ≤ c.toNat) :
    IsEscape c (escapeUnit (0xd800 + (c.toNat - 0x10000) / 0x400) ++
      escapeUnit (0xdc00 + (c.toNat - 0x10000) % 0x400))

theorem isEscape_of_named {c : Char} (h : c ∈ ['"', '\\', '\n', '\r', '\t', '\x0c', '\x08']) :
    IsEscape c (escapeChar c) := by
  simp only [List.mem_cons, List.not_mem_nil, or_false] at h
  rcases h with rfl | rfl | rfl | rfl | rfl | rfl | rfl
  all_goals exact .named (by decide) rfl

theorem isEscape_escapeChar (c : Char) : IsEscape c (escapeChar c) := by
  by_cases hnamed : c ∈ ['"', '\\', '\n', '\r', '\t', '\x0c', '\x08']
  · exact isEscape_of_named hnamed
  simp only [List.mem_cons, List.not_mem_nil, or_false, not_or] at hnamed
  obtain ⟨hquote, hslash, hline, hreturn, htab, hfeed, hback⟩ := hnamed
  have hfeed' : c.toNat ≠ 12 := fun h => hfeed (Char.toNat_inj.mp h)
  have hback' : c.toNat ≠ 8 := fun h => hback (Char.toNat_inj.mp h)
  simp only [escapeChar, hquote, hslash, hline, hreturn, htab, hfeed', hback', if_false]
  split
  · rename_i h
    exact .plain hquote hslash h
  · split
    · rename_i h
      exact .unit h
    · rename_i h
      exact .units (Nat.le_of_not_lt h)

section Characters

variable {start : Nat} {more rest cs : List Char}

theorem ne_nil_of_readChars (h : (readChars start more).Gives cs rest) : more ≠ [] := by
  rintro rfl
  obtain ⟨_, h⟩ := h
  rw [readChars.eq_def] at h
  cases h

theorem readChars_plain {c : Char} (hquote : c ≠ '"') (hslash : c ≠ '\\') (hc : 0x20 ≤ c.toNat)
    (h : (readChars start more).Gives cs rest) :
    (readChars start (c :: more)).Gives (c :: cs) rest := by
  obtain ⟨_, hread⟩ := h
  have hcontrol : ¬c.toNat ≤ 0x1f := by omega
  rw [readChars.eq_def]
  simp only [hquote, hslash, hcontrol, if_false, hread]
  exact ⟨_, rfl⟩

theorem readChars_simple {e c : Char} (hu : e ≠ 'u') (he : simpleEscape? e = some c)
    (h : (readChars start more).Gives cs rest) :
    (readChars start ('\\' :: e :: more)).Gives (c :: cs) rest := by
  obtain ⟨_, hread⟩ := h
  have hquote : '\\' ≠ '"' := by decide
  rw [readChars.eq_def]
  simp only [hquote, hu, if_false, if_true, he, hread]
  exact ⟨_, rfl⟩

theorem readChars_unit {c : Char} {s : List Char} (hs : (readUnit s).Gives c more)
    (h : (readChars start more).Gives cs rest) :
    (readChars start ('\\' :: 'u' :: s)).Gives (c :: cs) rest := by
  obtain ⟨_, hunit⟩ := hs
  obtain ⟨_, hread⟩ := h
  have hquote : '\\' ≠ '"' := by decide
  rw [readChars.eq_def]
  simp only [hquote, if_false, if_true, hunit, hread]
  exact ⟨_, rfl⟩

theorem readChars_escapeChar (c : Char) (h : (readChars start more).Gives cs rest) :
    (readChars start (escapeChar c ++ more)).Gives (c :: cs) rest := by
  have hm := ne_nil_of_readChars h
  -- the written form stands in the type of the result, so it is named before the cases are split
  have hescape := isEscape_escapeChar c
  generalize escapeChar c = s at hescape ⊢
  cases hescape with
  | plain hquote hslash hc => exact readChars_plain hquote hslash hc.1 h
  | named hu he => exact readChars_simple hu he h
  | unit hc => exact readChars_unit (readUnit_hexDigits hc hm) h
  | units hc =>
    have hunits := readUnit_surrogates (isSurrogate_units c).1 (isSurrogate_units c).2 hm
    rw [pairChar_units hc] at hunits
    rw [List.append_assoc]
    exact readChars_unit hunits h

theorem readChars_escaped (start : Nat) (cs rest : List Char) :
    (readChars start (cs.flatMap escapeChar ++ '"' :: rest)).Gives cs rest := by
  induction cs with
  | nil =>
    rw [List.flatMap_nil, List.nil_append, readChars.eq_def]
    exact ⟨_, if_pos rfl⟩
  | cons c cs ih =>
    rw [List.flatMap_cons, List.append_assoc]
    exact readChars_escapeChar c ih

end Characters

theorem readText_escaped (s : String) (rest : List Char) :
    (readText (s.toList.flatMap escapeChar ++ '"' :: rest)).Gives s rest := by
  obtain ⟨_, hread⟩ := readChars_escaped
    ((s.toList.flatMap escapeChar ++ '"' :: rest).length + 1) s.toList rest
  unfold readText
  simp only [hread, String.ofList_toList]
  exact ⟨_, rfl⟩

end WorkspaceCycles.Json
