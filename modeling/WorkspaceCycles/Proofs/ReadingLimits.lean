import Mathlib.Data.Nat.Init
import WorkspaceCycles.Json.Reader

/-!
What keeps a text from being read although it may break no rule of the grammar: a number that is
too long, or lists and objects that are nested too deep. The text is long enough to hold either, and
how deep it may be nested makes no other difference.
-/

namespace WorkspaceCycles.Json

variable {α β : Type} {bound bound' levels : Nat}

structure Result.IsBounded (levels : Nat) (r : Result α bound) : Prop where
  long : ∀ digits, r = .error (.tooLong digits) → maxDigits < digits ∧ digits ≤ bound
  deep : ∀ kind, r = .error (.tooDeep kind) → levels < bound

theorem Result.IsBounded.ok (r : Read α bound) : Result.IsBounded levels (.ok r) where
  long := nofun
  deep := nofun

theorem Result.IsBounded.syntaxFault (problem : Problem) (left : Nat) :
    Result.IsBounded levels (.error (.syntaxFault problem left) : Result α bound) where
  long := nofun
  deep := nofun

theorem Result.IsBounded.tooDeep (kind : String) (h : levels < bound) :
    Result.IsBounded levels (.error (.tooDeep kind) : Result α bound) where
  long := nofun
  deep := fun _ _ => h

theorem Result.IsBounded.of_eq_error {r : Result α bound} {f : Fault} (h : r.IsBounded levels)
    (hr : r = .error f) (hb : bound ≤ bound') :
    Result.IsBounded levels (.error f : Result β bound') where
  long digits hd := by
    cases hd
    obtain ⟨hlong, hle⟩ := h.long digits hr
    exact ⟨hlong, Nat.le_trans hle hb⟩
  deep kind hd := by
    cases hd
    exact Nat.lt_of_lt_of_le (h.deep kind hr) hb

theorem Result.IsBounded.of_inner {r : Result α bound} {f : Fault} (h : r.IsBounded (levels - 1))
    (hr : r = .error f) (hb : bound < bound') :
    Result.IsBounded levels (.error f : Result β bound') where
  long := (h.of_eq_error (β := β) hr (Nat.le_of_lt hb)).long
  deep kind hd := by
    cases hd
    have := h.deep kind hr
    omega

theorem Result.IsBounded.map {r : Result α bound} (h : r.IsBounded levels)
    (f : Read α bound → Read β bound') (hb : bound ≤ bound') :
    Result.IsBounded levels (Except.map f r) := by
  cases hr : r with
  | error fault => exact h.of_eq_error hr hb
  | ok v => exact .ok _

theorem isBounded_hexUnit (s : List Char) : (hexUnit s).IsBounded levels := by
  unfold hexUnit
  split
  · split
    · exact .ok _
    · exact .syntaxFault _ _
  · exact .syntaxFault _ _

theorem isBounded_readUnit (s : List Char) : (readUnit s).IsBounded levels := by
  unfold readUnit
  split
  · rename_i h
    exact (isBounded_hexUnit s).of_eq_error h (Nat.le_refl _)
  · split
    · split
      · split
        · rename_i more hlt _ _ _ h
          have hle : more.length ≤ s.length := by
            simp only [List.length_cons] at hlt
            omega
          exact (isBounded_hexUnit more).of_eq_error h hle
        · split <;> exact .ok _
      · exact .ok _
    · exact .ok _

theorem isBounded_readChars (start : Nat) (s : List Char) :
    (readChars start s).IsBounded levels := by
  fun_induction readChars start s with
  | case1 => exact .syntaxFault _ _
  | case2 => exact .ok _
  | case3 => exact .syntaxFault _ _
  | case4 rest f h =>
    exact (isBounded_readUnit rest).of_eq_error h (by simp only [List.length_cons]; omega)
  | case5 rest r _ _ h ih => exact ih.map _ (Nat.le_of_lt h)
  | case6 => exact .syntaxFault _ _
  | case7 e rest _ ch _ _ h ih => exact ih.map _ (Nat.le_of_lt h)
  | case8 => exact .syntaxFault _ _
  | case9 c rest _ _ _ h ih => exact ih.map _ (Nat.le_of_lt h)

theorem isBounded_readText (s : List Char) : (readText s).IsBounded levels := by
  unfold readText
  split
  · rename_i h
    exact (isBounded_readChars _ s).of_eq_error h (Nat.le_refl _)
  · exact .ok _

theorem Numeral.value_eq_tooLong {n : Numeral} {digits : Nat}
    (h : n.value = .error (.tooLong digits)) :
    maxDigits < digits ∧ digits = n.whole.length := by
  unfold value at h
  split at h
  · split at h
    · rename_i hlt
      cases h
      exact ⟨hlt, rfl⟩
    · cases h
  · cases h

theorem length_splitWhole_le (s : List Char) : (splitWhole s).1.length ≤ s.length := by
  have h := congrArg List.length (splitWhole_append s)
  rw [List.length_append] at h
  omega

theorem Numeral.value_ne_tooDeep (n : Numeral) (kind : String) :
    n.value ≠ .error (.tooDeep kind) := by
  unfold value
  split
  · split <;> nofun
  · nofun

theorem isBounded_readUnsigned (start : Nat) (negative : Bool) (s : List Char) :
    (readUnsigned start negative s).IsBounded levels := by
  simp only [readUnsigned]
  split
  · exact .syntaxFault _ _
  · split
    · rename_i f h
      constructor
      · intro digits hd
        cases hd
        obtain ⟨hlong, rfl⟩ := Numeral.value_eq_tooLong h
        exact ⟨hlong, length_splitWhole_le s⟩
      · intro kind hd
        cases hd
        exact absurd h (Numeral.value_ne_tooDeep _ _)
    · exact .ok _

theorem isBounded_readNumber (s : List Char) : (readNumber s).IsBounded levels := by
  unfold readNumber
  split
  · split
    · rename_i h
      exact (isBounded_readUnsigned _ _ _).of_eq_error h (Nat.le_succ _)
    · exact .ok _
  · exact isBounded_readUnsigned _ _ _

theorem length_skip_lt {s rest : List Char} {c : Char} (h : skip s = c :: rest) :
    (skip rest).length < s.length := by
  have hs := length_skip_le s
  have hrest := length_skip_le rest
  rw [h, List.length_cons] at hs
  omega

theorem isBounded_readValue {s : List Char}
    (hi : ∀ t : List Char, t.length < s.length → ∀ levels, (readItems levels t).IsBounded levels)
    (hf : ∀ t : List Char, t.length < s.length → ∀ levels, (readFields levels t).IsBounded levels)
    (levels : Nat) : (readValue levels s).IsBounded levels := by
  rw [readValue.eq_def]
  split
  · exact .syntaxFault _ _
  · rename_i c rest
    have hskip : (skip rest).length < (c :: rest).length := Nat.lt_succ_of_le (length_skip_le rest)
    split
    · split
      · rename_i h
        exact (isBounded_readText rest).of_eq_error h (Nat.le_succ _)
      · exact .ok _
    · split
      · split
        · exact .tooDeep _ (by simp only [List.length_cons]; omega)
        · split
          · exact .ok _
          · split
            · rename_i h
              exact (hi _ hskip _).of_inner h hskip
            · exact .ok _
      · split
        · split
          · exact .tooDeep _ (by simp only [List.length_cons]; omega)
          · split
            · exact .ok _
            · split
              · rename_i h
                exact (hf _ hskip _).of_inner h hskip
              · exact .ok _
        · split
          · exact .ok _
          · exact isBounded_readNumber _

theorem isBounded_readItems {s : List Char} (hv : (readValue levels s).IsBounded levels)
    (hi : ∀ t : List Char, t.length < s.length → (readItems levels t).IsBounded levels) :
    (readItems levels s).IsBounded levels := by
  rw [readItems]
  split
  · rename_i h
    exact hv.of_eq_error h (Nat.le_refl _)
  · rename_i more hmore _
    split
    · exact .ok _
    · rename_i hs
      have hlt := Nat.lt_trans (length_skip_lt hs) hmore
      split
      · rename_i h
        exact (hi _ hlt).of_eq_error h (Nat.le_of_lt hlt)
      · exact .ok _
    · exact .syntaxFault _ _

theorem isBounded_readFields {s : List Char}
    (hv : ∀ t : List Char, t.length < s.length → (readValue levels t).IsBounded levels)
    (hf : ∀ t : List Char, t.length < s.length → (readFields levels t).IsBounded levels) :
    (readFields levels s).IsBounded levels := by
  rw [readFields.eq_def]
  split
  · rename_i rest
    split
    · rename_i h
      exact (isBounded_readText rest).of_eq_error h (Nat.le_succ _)
    · rename_i more hmore _
      split
      · rename_i body hc
        have hbody : (skip body).length < ('"' :: rest).length :=
          Nat.lt_succ_of_lt (Nat.lt_trans (length_skip_lt hc) hmore)
        split
        · rename_i h
          exact (hv _ hbody).of_eq_error h (Nat.le_of_lt hbody)
        · rename_i more' hmore' _
          split
          · exact .ok _
          · rename_i hr
            have hrest := Nat.lt_trans (Nat.lt_trans (length_skip_lt hr) hmore') hbody
            split
            · rename_i h
              exact (hf _ hrest).of_eq_error h (Nat.le_of_lt hrest)
            · exact .ok _
          · exact .syntaxFault _ _
      · exact .syntaxFault _ _
  · exact .syntaxFault _ _

theorem isBounded_of_length (n : Nat) : ∀ s : List Char, s.length = n → ∀ levels,
    (readValue levels s).IsBounded levels ∧ (readItems levels s).IsBounded levels ∧
      (readFields levels s).IsBounded levels := by
  induction n using Nat.strongRecOn with
  | ind n ih =>
    rintro s rfl levels
    -- the items of `s` begin with a value that is read from `s` itself, so values come first
    have hvalue := fun (t : List Char) (h : t.length < s.length) => (ih _ h t rfl levels).1
    have hitems := fun (t : List Char) (h : t.length < s.length) levels => (ih _ h t rfl levels).2.1
    have hfields := fun (t : List Char) (h : t.length < s.length) levels =>
      (ih _ h t rfl levels).2.2
    have hv := isBounded_readValue hitems hfields levels
    exact ⟨hv, isBounded_readItems hv fun t h => hitems t h levels,
      isBounded_readFields hvalue fun t h => hfields t h levels⟩

theorem readWithin_isBounded (levels : Nat) (s : List Char) :
    (∀ digits, readWithin levels s = .error (.tooLong digits) →
      maxDigits < digits ∧ digits ≤ s.length) ∧
    ∀ kind, readWithin levels s = .error (.tooDeep kind) → levels < s.length := by
  have hle := length_skip_le s
  have hvalue := (isBounded_of_length _ (skip s) rfl levels).1
  unfold readWithin
  split
  · constructor <;> intro _ h <;> cases h
  · split
    · rename_i f hr
      constructor
      · intro digits h
        cases h
        obtain ⟨hlong, hd⟩ := hvalue.long digits hr
        exact ⟨hlong, Nat.le_trans hd hle⟩
      · intro kind h
        cases h
        exact Nat.lt_of_lt_of_le (hvalue.deep kind hr) hle
    · split <;> constructor <;> intro _ h <;> cases h

section Agreement

variable {l l' : Nat}

def Result.Agrees (r r' : Result α bound) : Prop :=
  (∃ kind, r = .error (.tooDeep kind)) ∨ r' = r

theorem agrees_readValue {s : List Char}
    (hi : ∀ t : List Char, t.length < s.length → ∀ l l', l ≤ l' →
      (readItems l t).Agrees (readItems l' t))
    (hf : ∀ t : List Char, t.length < s.length → ∀ l l', l ≤ l' →
      (readFields l t).Agrees (readFields l' t))
    (hle : l ≤ l') : (readValue l s).Agrees (readValue l' s) := by
  have hinner : l - 1 ≤ l' - 1 := Nat.sub_le_sub_right hle 1
  rw [readValue.eq_def l, readValue.eq_def l']
  split
  · exact .inr rfl
  · rename_i c rest
    have hskip : (skip rest).length < (c :: rest).length := Nat.lt_succ_of_le (length_skip_le rest)
    split
    · exact .inr rfl
    · split
      · split
        · exact .inl ⟨_, rfl⟩
        · rename_i hl
          rw [if_neg (by omega)]
          split
          · exact .inr rfl
          · rcases hi _ hskip _ _ hinner with ⟨kind, hk⟩ | he
            · exact .inl ⟨kind, by rw [hk]⟩
            · exact .inr (by rw [he])
      · split
        · split
          · exact .inl ⟨_, rfl⟩
          · rename_i hl
            rw [if_neg (by omega)]
            split
            · exact .inr rfl
            · rcases hf _ hskip _ _ hinner with ⟨kind, hk⟩ | he
              · exact .inl ⟨kind, by rw [hk]⟩
              · exact .inr (by rw [he])
        · exact .inr rfl

theorem agrees_readItems {s : List Char} (hv : (readValue l s).Agrees (readValue l' s))
    (hi : ∀ t : List Char, t.length < s.length → (readItems l t).Agrees (readItems l' t)) :
    (readItems l s).Agrees (readItems l' s) := by
  rcases hv with ⟨kind, hk⟩ | hv
  · exact .inl ⟨kind, by rw [readItems, hk]⟩
  · rw [readItems.eq_def l', hv, readItems.eq_def l]
    split
    · exact .inr rfl
    · rename_i more hmore _
      split
      · exact .inr rfl
      · rename_i hr
        rcases hi _ (Nat.lt_trans (length_skip_lt hr) hmore) with ⟨kind, hk⟩ | he
        · exact .inl ⟨kind, by rw [hk]⟩
        · exact .inr (by rw [he])
      · exact .inr rfl

theorem agrees_readFields {s : List Char}
    (hv : ∀ t : List Char, t.length < s.length → (readValue l t).Agrees (readValue l' t))
    (hf : ∀ t : List Char, t.length < s.length → (readFields l t).Agrees (readFields l' t)) :
    (readFields l s).Agrees (readFields l' s) := by
  rw [readFields.eq_def l, readFields.eq_def l']
  split
  · rename_i rest
    split
    · exact .inr rfl
    · rename_i more hmore _
      split
      · rename_i body hc
        have hbody : (skip body).length < ('"' :: rest).length :=
          Nat.lt_succ_of_lt (Nat.lt_trans (length_skip_lt hc) hmore)
        rcases hv _ hbody with ⟨kind, hk⟩ | he
        · exact .inl ⟨kind, by rw [hk]⟩
        simp only [he]
        split
        · exact .inr rfl
        · rename_i more' hmore' _
          split
          · exact .inr rfl
          · rename_i hr
            have hrest := Nat.lt_trans (Nat.lt_trans (length_skip_lt hr) hmore') hbody
            rcases hf _ hrest with ⟨kind, hk⟩ | he
            · exact .inl ⟨kind, by rw [hk]⟩
            · exact .inr (by rw [he])
          · exact .inr rfl
      · exact .inr rfl
  · exact .inr rfl

theorem agrees_of_length (n : Nat) : ∀ s : List Char, s.length = n → ∀ l l', l ≤ l' →
    (readValue l s).Agrees (readValue l' s) ∧ (readItems l s).Agrees (readItems l' s) ∧
      (readFields l s).Agrees (readFields l' s) := by
  induction n using Nat.strongRecOn with
  | ind n ih =>
    rintro s rfl l l' hle
    have hvalue := fun (t : List Char) (h : t.length < s.length) => (ih _ h t rfl l l' hle).1
    have hitems := fun (t : List Char) (h : t.length < s.length) l l' hle =>
      (ih _ h t rfl l l' hle).2.1
    have hfields := fun (t : List Char) (h : t.length < s.length) l l' hle =>
      (ih _ h t rfl l l' hle).2.2
    have hv := agrees_readValue hitems hfields hle
    exact ⟨hv, agrees_readItems hv fun t h => hitems t h l l' hle,
      agrees_readFields hvalue fun t h => hfields t h l l' hle⟩

theorem readWithin_eq_of_le {s : List Char} (hle : l ≤ l')
    (h : ∀ kind, readWithin l s ≠ .error (.tooDeep kind)) : readWithin l' s = readWithin l s := by
  unfold readWithin at h ⊢
  split
  · rfl
  · rcases (agrees_of_length _ (skip s) rfl l l' hle).1 with ⟨kind, hk⟩ | he
    · simp [hk] at h
    · rw [he]

theorem read_eq_readWithin {s : List Char}
    (h : ∀ kind, readWithin levels s ≠ .error (.tooDeep kind)) : read s = readWithin levels s := by
  rcases Nat.le_total levels s.length with hle | hle
  · exact readWithin_eq_of_le hle h
  · refine (readWithin_eq_of_le hle fun kind hk => ?_).symm
    exact Nat.lt_irrefl _ ((readWithin_isBounded s.length s).2 kind hk)

end Agreement

end WorkspaceCycles.Json
