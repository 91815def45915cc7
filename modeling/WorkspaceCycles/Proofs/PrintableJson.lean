import Mathlib.Data.Nat.Init
import WorkspaceCycles.Proofs.WrittenJson

namespace WorkspaceCycles.Json

def isShown (c : Char) : Bool :=
  isSpace c || decide (0x20 ≤ c.toNat ∧ c.toNat < 0x7f)

theorem isShown_of_range {c : Char} (h : 0x20 ≤ c.toNat ∧ c.toNat < 0x7f) : isShown c = true := by
  simp [isShown, h]

theorem isShown_of_isDigit {c : Char} (h : c.isDigit = true) : isShown c = true := by
  have hrange := Char.isDigit_iff_toNat.mp h
  change 48 ≤ c.toNat ∧ c.toNat ≤ 57 at hrange
  apply isShown_of_range
  omega

theorem isShown_digitChar {d : Nat} (h : d < 16) : isShown (Nat.digitChar d) = true := by
  revert d
  decide

theorem forall_mem_escapeUnit (n : Nat) : ∀ c ∈ escapeUnit n, isShown c = true := by
  have hpos : 0 < 16 := by decide
  simp only [escapeUnit, hexDigits_four, List.forall_mem_cons]
  exact ⟨by decide, by decide, isShown_digitChar (Nat.mod_lt _ hpos),
    isShown_digitChar (Nat.mod_lt _ hpos), isShown_digitChar (Nat.mod_lt _ hpos),
    isShown_digitChar (Nat.mod_lt _ hpos), List.forall_mem_nil _⟩

theorem isShown_of_simpleEscape? {e c : Char} (h : simpleEscape? e = some c) : isShown e = true := by
  by_cases he : e ∈ ['"', '\\', '/', 'b', 'f', 'n', 'r', 't']
  · exact List.all_eq_true.mp rfl e he
  · simp only [List.mem_cons, List.not_mem_nil, or_false, not_or] at he
    obtain ⟨hquote, hslash, hsolidus, hb, hf, hn, hr, ht⟩ := he
    simp [simpleEscape?, hquote, hslash, hsolidus, hb, hf, hn, hr, ht] at h

theorem forall_mem_escapeChar (c : Char) : ∀ d ∈ escapeChar c, isShown d = true := by
  have hescape := isEscape_escapeChar c
  generalize escapeChar c = s at hescape ⊢
  cases hescape with
  | plain _ _ hc => exact List.forall_mem_singleton.mpr (isShown_of_range hc)
  | @named e _ he =>
    have hname : ∀ d ∈ [e], isShown d = true :=
      List.forall_mem_singleton.mpr (isShown_of_simpleEscape? he)
    exact List.forall_mem_cons.mpr ⟨by decide, hname⟩
  | unit => exact forall_mem_escapeUnit _
  | units => exact List.forall_mem_append.mpr ⟨forall_mem_escapeUnit _, forall_mem_escapeUnit _⟩

theorem forall_mem_escaped (s : String) : ∀ c ∈ s.toList.flatMap escapeChar, isShown c = true := by
  intro c hc
  obtain ⟨d, -, hd⟩ := List.mem_flatMap.mp hc
  exact forall_mem_escapeChar d c hd

theorem forall_mem_writeInt (n : Int) : ∀ c ∈ writeInt n, isShown c = true := by
  have hdigits : ∀ n, ∀ c ∈ Nat.toDigits 10 n, isShown c = true := fun n c hc =>
    isShown_of_isDigit (Nat.isDigit_of_mem_toDigits (by decide) (by decide) hc)
  cases n with
  | ofNat n => exact hdigits n
  | negSucc n => exact List.forall_mem_cons.mpr ⟨by decide, hdigits (n + 1)⟩

section Values

variable {br : Break}

theorem forall_mem_break (hb : br.IsBlank) (depth : Nat) : ∀ c ∈ br depth, isShown c = true :=
  by
  intro c hc
  simp [isShown, hb depth c hc]

theorem forall_mem_writeItems (hb : br.IsBlank) {items : List Json}
    (h : ∀ v ∈ items, ∀ depth, ∀ c ∈ write br depth v, isShown c = true) (depth : Nat) :
    ∀ c ∈ writeItems br depth items, isShown c = true := by
  induction items with
  | nil => exact List.forall_mem_nil _
  | cons item items ih =>
    obtain ⟨hitem, hitems⟩ := List.forall_mem_cons.mp h
    rw [← List.append_nil (writeItems br depth _), writeItems_append, List.append_nil]
    simp only [List.forall_mem_cons, List.forall_mem_append]
    exact ⟨by decide, forall_mem_break hb depth, hitem depth, ih hitems⟩

theorem forall_mem_writeFields (hb : br.IsBlank) {fields : List (String × Json)}
    (h : ∀ f ∈ fields, ∀ depth, ∀ c ∈ write br depth f.2, isShown c = true) (depth : Nat) :
    ∀ c ∈ writeFields br depth fields, isShown c = true := by
  induction fields with
  | nil => exact List.forall_mem_nil _
  | cons f fields ih =>
    obtain ⟨hf, hfields⟩ := List.forall_mem_cons.mp h
    rw [← List.append_nil (writeFields br depth _), writeFields_append, List.append_nil]
    simp only [List.forall_mem_cons, List.forall_mem_append]
    exact ⟨by decide, forall_mem_break hb depth, by decide, forall_mem_escaped f.1, by decide,
      by decide, by decide, hf depth, ih hfields⟩

theorem forall_mem_write (hb : br.IsBlank) {v : Json} (hv : v.IsPlain) (depth : Nat) :
    ∀ c ∈ write br depth v, isShown c = true := by
  induction hv generalizing depth with
  | null => exact List.all_eq_true.mp rfl
  | bool b => cases b <;> exact List.all_eq_true.mp rfl
  | int => rw [write]; exact forall_mem_writeInt _
  | text s =>
    simp only [write, writeText, List.forall_mem_cons, List.forall_mem_append]
    exact ⟨⟨by decide, forall_mem_escaped s⟩, by decide, List.forall_mem_nil _⟩
  | @list items _ ih =>
    cases items with
    | nil => exact List.all_eq_true.mp rfl
    | cons item items =>
      obtain ⟨hitem, hitems⟩ := List.forall_mem_cons.mp ih
      rw [← List.append_nil (write br depth _), write_list_append]
      simp only [List.forall_mem_cons, List.forall_mem_append]
      exact ⟨by decide, forall_mem_break hb _, hitem _, forall_mem_writeItems hb hitems _,
        forall_mem_break hb _, by decide, List.forall_mem_nil _⟩
  | @object fields _ _ ih =>
    cases fields with
    | nil => exact List.all_eq_true.mp rfl
    | cons f fields =>
      obtain ⟨hf, hfields⟩ := List.forall_mem_cons.mp ih
      rw [← List.append_nil (write br depth _), write_object_append]
      simp only [List.forall_mem_cons, List.forall_mem_append]
      exact ⟨by decide, forall_mem_break hb _, by decide, forall_mem_escaped f.1, by decide,
        by decide, by decide, hf _, forall_mem_writeFields hb hfields _, forall_mem_break hb _,
        by decide, List.forall_mem_nil _⟩

end Values

end WorkspaceCycles.Json
