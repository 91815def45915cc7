import Mathlib.Data.Nat.Init
import WorkspaceCycles.Proofs.WrittenNumbers

namespace WorkspaceCycles.Json

inductive IsPlain : Json → Prop where
  | null : IsPlain .null
  | bool (b : Bool) : IsPlain (.bool b)
  | int {n : Int} (h : n.natAbs < 10 ^ maxDigits) : IsPlain (.int n)
  | text (s : String) : IsPlain (.text s)
  | list {items : List Json} (h : ∀ v ∈ items, IsPlain v) : IsPlain (.list items)
  | object {fields : List (String × Json)} (hkeys : (Assoc.keys fields).Nodup)
    (h : ∀ f ∈ fields, IsPlain f.2) : IsPlain (.object fields)

def Break.IsBlank (br : Break) : Prop :=
  ∀ depth, ∀ c ∈ br depth, isSpace c = true

theorem isBlank_newLine : newLine.IsBlank := by
  intro depth c hc
  simp only [newLine, List.mem_cons, List.mem_replicate] at hc
  rcases hc with rfl | ⟨-, rfl⟩
  · rfl
  · rfl

section Blanks

variable {blank rest : List Char} {c : Char}

theorem skip_append (h : ∀ c ∈ blank, isSpace c = true) (rest : List Char) :
    skip (blank ++ rest) = skip rest :=
  List.dropWhile_append_of_pos h

theorem skip_cons (h : isSpace c = false) (rest : List Char) : skip (c :: rest) = c :: rest := by
  simp [skip, h]

theorem eq_of_isSpace (h : isSpace c = true) : c = ' ' ∨ c = '\t' ∨ c = '\n' ∨ c = '\r' := by
  simpa [isSpace, or_assoc] using h

theorem endsNumber_cons (h : isSpace c = true ∨ c ∈ [',', ']', '\x7d']) (rest : List Char) :
    EndsNumber (c :: rest) := by
  intro d hd
  obtain rfl : c = d := by simpa using hd
  rcases h with h | h
  · rcases eq_of_isSpace h with rfl | rfl | rfl | rfl <;> decide
  · simp only [List.mem_cons, List.not_mem_nil, or_false] at h
    rcases h with rfl | rfl | rfl <;> decide

theorem endsNumber_append (hb : ∀ c ∈ blank, isSpace c = true) (hr : EndsNumber rest) :
    EndsNumber (blank ++ rest) := by
  cases blank with
  | nil => exact hr
  | cons c blank => exact endsNumber_cons (.inl (hb c List.mem_cons_self)) _

end Blanks

-- The readers match on what is left together with a proof that it is shorter, so what is known of
-- it cannot be rewritten there: each step splits the match and refutes the other cases.
section Steps

variable {s rest more : List Char} {v : Json} {levels : Nat}

theorem readValue_text {t : String} (h : (readText rest).Gives t more) :
    (readValue levels ('"' :: rest)).Gives (.text t) more := by
  obtain ⟨_, h⟩ := h
  rw [readValue.eq_def]
  simp only [if_true, h]
  exact ⟨_, rfl⟩

theorem readValue_word {c : Char} (hc : c ≠ '"' ∧ c ≠ '[' ∧ c ≠ '\x7b')
    (h : splitWord? (c :: s) = some (v, more)) : (readValue levels (c :: s)).Gives v more := by
  obtain ⟨hquote, hlist, hobject⟩ := hc
  rw [readValue.eq_def]
  simp only [hquote, hlist, hobject, if_false]
  split
  · rename_i h'
    rw [h] at h'
    cases h'
    exact ⟨_, rfl⟩
  · rename_i h'
    rw [h] at h'
    cases h'

theorem readValue_emptyList (hl : 0 < levels) (h : skip rest = ']' :: more) :
    (readValue levels ('[' :: rest)).Gives (.list []) more := by
  have hquote : '[' ≠ '"' := by decide
  rw [readValue.eq_def]
  simp only [hquote, Nat.ne_of_gt hl, if_false, if_true]
  split
  · rename_i h'
    rw [h] at h'
    cases h'
    exact ⟨_, rfl⟩
  · rename_i h'
    exact absurd h (h' _)

theorem readValue_list {items : List Json} (hl : 0 < levels) (hne : ∀ t, skip rest ≠ ']' :: t)
    (h : (readItems (levels - 1) (skip rest)).Gives items more) :
    (readValue levels ('[' :: rest)).Gives (.list items) more := by
  obtain ⟨_, h⟩ := h
  have hquote : '[' ≠ '"' := by decide
  rw [readValue.eq_def]
  simp only [hquote, Nat.ne_of_gt hl, if_false, if_true, h]
  exact ⟨_, rfl⟩

theorem readValue_emptyObject (hl : 0 < levels) (h : skip rest = '\x7d' :: more) :
    (readValue levels ('\x7b' :: rest)).Gives (.object []) more := by
  have hc : '\x7b' ≠ '"' ∧ '\x7b' ≠ '[' := by decide
  rw [readValue.eq_def]
  simp only [hc, Nat.ne_of_gt hl, if_false, if_true]
  split
  · rename_i h'
    rw [h] at h'
    cases h'
    exact ⟨_, rfl⟩
  · rename_i h'
    exact absurd h (h' _)

theorem readValue_object {fields : List (String × Json)} (hl : 0 < levels)
    (hne : ∀ t, skip rest ≠ '\x7d' :: t)
    (h : (readFields (levels - 1) (skip rest)).Gives fields more) :
    (readValue levels ('\x7b' :: rest)).Gives (.object (Assoc.ofPairs fields)) more := by
  obtain ⟨_, h⟩ := h
  have hc : '\x7b' ≠ '"' ∧ '\x7b' ≠ '[' := by decide
  rw [readValue.eq_def]
  simp only [hc, Nat.ne_of_gt hl, if_false, if_true, h]
  exact ⟨_, rfl⟩

theorem readItems_last (hv : (readValue levels s).Gives v rest) (h : skip rest = ']' :: more) :
    (readItems levels s).Gives [v] more := by
  obtain ⟨_, hv⟩ := hv
  rw [readItems]
  simp only [hv]
  split
  · rename_i h'
    rw [h] at h'
    cases h'
    exact ⟨_, rfl⟩
  · rename_i h'
    rw [h] at h'
    cases h'
  · rename_i h' _
    exact absurd h (h' _)

theorem readItems_more {items : List Json} {next : List Char} (hv : (readValue levels s).Gives v rest)
    (h : skip rest = ',' :: next) (hi : (readItems levels (skip next)).Gives items more) :
    (readItems levels s).Gives (v :: items) more := by
  obtain ⟨_, hv⟩ := hv
  obtain ⟨_, hi⟩ := hi
  rw [readItems]
  simp only [hv]
  split
  · rename_i h'
    rw [h] at h'
    cases h'
  · rename_i h'
    rw [h] at h'
    cases h'
    simp only [hi]
    exact ⟨_, rfl⟩
  · rename_i h'
    exact absurd h (h' _)

theorem readFields_last {k : String} {afterKey body afterValue : List Char}
    (hk : (readText s).Gives k afterKey) (hc : skip afterKey = ':' :: body)
    (hv : (readValue levels (skip body)).Gives v afterValue) (h : skip afterValue = '\x7d' :: more) :
    (readFields levels ('"' :: s)).Gives [(k, v)] more := by
  obtain ⟨_, hk⟩ := hk
  obtain ⟨_, hv⟩ := hv
  rw [readFields.eq_def]
  simp only [hk]
  split
  · rename_i hcolon
    rw [hc] at hcolon
    cases hcolon
    simp only [hv]
    split
    · rename_i h'
      rw [h] at h'
      cases h'
      exact ⟨_, rfl⟩
    · rename_i h'
      rw [h] at h'
      cases h'
    · rename_i h' _
      exact absurd h (h' _)
  · rename_i h'
    exact absurd hc (h' _)

theorem readFields_more {k : String} {fields : List (String × Json)}
    {afterKey body afterValue next : List Char} (hk : (readText s).Gives k afterKey)
    (hc : skip afterKey = ':' :: body) (hv : (readValue levels (skip body)).Gives v afterValue)
    (h : skip afterValue = ',' :: next) (hf : (readFields levels (skip next)).Gives fields more) :
    (readFields levels ('"' :: s)).Gives ((k, v) :: fields) more := by
  obtain ⟨_, hk⟩ := hk
  obtain ⟨_, hv⟩ := hv
  obtain ⟨_, hf⟩ := hf
  rw [readFields.eq_def]
  simp only [hk]
  split
  · rename_i hcolon
    rw [hc] at hcolon
    cases hcolon
    simp only [hv]
    split
    · rename_i h'
      rw [h] at h'
      cases h'
    · rename_i h'
      rw [h] at h'
      cases h'
      simp only [hf]
      exact ⟨_, rfl⟩
    · rename_i h'
      exact absurd h (h' _)
  · rename_i h'
    exact absurd hc (h' _)

end Steps

section Values

variable {br : Break}

theorem write_list_append (depth : Nat) (item : Json) (items : List Json) (rest : List Char) :
    write br depth (.list (item :: items)) ++ rest =
      '[' :: (br (depth + 1) ++ (write br (depth + 1) item ++
        (writeItems br (depth + 1) items ++ (br depth ++ ']' :: rest)))) := by
  simp [write]

theorem writeItems_append (depth : Nat) (item : Json) (items : List Json) (rest : List Char) :
    writeItems br depth (item :: items) ++ rest =
      ',' :: (br depth ++ (write br depth item ++ (writeItems br depth items ++ rest))) := by
  simp [writeItems]

theorem write_object_append (depth : Nat) (k : String) (v : Json) (fields : List (String × Json))
    (rest : List Char) :
    write br depth (.object ((k, v) :: fields)) ++ rest =
      '\x7b' :: (br (depth + 1) ++ '"' :: (k.toList.flatMap escapeChar ++ '"' :: ':' :: ' ' ::
        (write br (depth + 1) v ++ (writeFields br (depth + 1) fields ++
          (br depth ++ '\x7d' :: rest))))) := by
  simp [write, writeText]

theorem writeFields_append (depth : Nat) (k : String) (v : Json) (fields : List (String × Json))
    (rest : List Char) :
    writeFields br depth ((k, v) :: fields) ++ rest =
      ',' :: (br depth ++ '"' :: (k.toList.flatMap escapeChar ++ '"' :: ':' :: ' ' ::
        (write br depth v ++ (writeFields br depth fields ++ rest)))) := by
  simp [writeFields, writeText]

def ReadsBack (br : Break) (v : Json) : Prop :=
  ∀ (levels depth : Nat) (rest : List Char), (write br depth v).length ≤ levels →
    EndsNumber rest → (readValue levels (write br depth v ++ rest)).Gives v rest

theorem isSpace_of_isDigit {c : Char} (h : c.isDigit = true) :
    isSpace c = false ∧ c ≠ ']' ∧ c ≠ '\ufeff' := by
  have hne := fun d hd => (ne_of_isDigit h d hd).symm
  refine ⟨?_, hne ']' rfl, hne '\ufeff' rfl⟩
  simp [isSpace, hne ' ' rfl, hne '\t' rfl, hne '\n' rfl, hne '\r' rfl]

theorem exists_write_append_eq_cons {v : Json} (hv : v.IsPlain) (br : Break) (depth : Nat)
    (rest : List Char) :
    ∃ c cs, write br depth v ++ rest = c :: cs ∧ isSpace c = false ∧ c ≠ ']' ∧ c ≠ '\ufeff' := by
  cases hv with
  | null => exact ⟨_, _, rfl, by decide⟩
  | bool b => cases b <;> exact ⟨_, _, rfl, by decide⟩
  | @int n =>
    rw [write]
    cases n with
    | ofNat n =>
      obtain ⟨d, ds, hdigits, hd⟩ := exists_toDigits_eq_cons n
      exact ⟨d, ds ++ rest, by rw [writeInt, hdigits, List.cons_append], isSpace_of_isDigit hd⟩
    | negSucc n => exact ⟨_, _, rfl, by decide⟩
  | text s => exact ⟨_, _, rfl, by decide⟩
  | @list items =>
    cases items with
    | nil => exact ⟨'[', ']' :: rest, by simp [write], by decide⟩
    | cons => exact ⟨'[', _, write_list_append .., by decide⟩
  | @object fields =>
    cases fields with
    | nil => exact ⟨'\x7b', '\x7d' :: rest, by simp [write], by decide⟩
    | cons => exact ⟨'\x7b', _, write_object_append .., by decide⟩

theorem skip_write {v : Json} (hv : v.IsPlain) {blank : List Char}
    (hb : ∀ c ∈ blank, isSpace c = true) (depth : Nat) (rest : List Char) :
    skip (blank ++ (write br depth v ++ rest)) = write br depth v ++ rest := by
  obtain ⟨c, cs, hc, hspace, -⟩ := exists_write_append_eq_cons hv br depth rest
  rw [skip_append hb, hc, skip_cons hspace]

theorem readItems_write (hb : br.IsBlank) (levels depth : Nat) {rest more : List Char}
    (hrest : EndsNumber rest) (hmore : skip rest = ']' :: more) {item : Json} {items : List Json}
    (hlen : (write br depth item).length + (writeItems br depth items).length ≤ levels)
    (hp : ∀ v ∈ item :: items, v.IsPlain) (h : ∀ v ∈ item :: items, ReadsBack br v) :
    (readItems levels (write br depth item ++ (writeItems br depth items ++ rest))).Gives
      (item :: items) more := by
  have hitem : (write br depth item).length ≤ levels := by omega
  induction items generalizing item with
  | nil => exact readItems_last (h item List.mem_cons_self _ depth _ hitem hrest) hmore
  | cons next items ih =>
    have hlen' : (write br depth next).length + (writeItems br depth items).length ≤ levels := by
      simp only [writeItems, List.length_append, List.length_cons] at hlen
      omega
    have hread := ih hlen' (List.forall_mem_cons.mp hp).2 (List.forall_mem_cons.mp h).2 (by omega)
    rw [writeItems_append]
    refine readItems_more (h item List.mem_cons_self _ depth _ hitem
      (endsNumber_cons (.inr (by decide)) _)) (skip_cons (by decide) _) ?_
    rwa [skip_write (hp next (by simp)) (hb depth)]

theorem readFields_write (hb : br.IsBlank) (levels depth : Nat) {rest more : List Char}
    (hrest : EndsNumber rest) (hmore : skip rest = '\x7d' :: more) {k : String} {v : Json}
    {fields : List (String × Json)}
    (hlen : (write br depth v).length + (writeFields br depth fields).length ≤ levels)
    (hp : ∀ f ∈ (k, v) :: fields, f.2.IsPlain)
    (h : ∀ f ∈ (k, v) :: fields, ReadsBack br f.2) :
    (readFields levels ('"' :: (k.toList.flatMap escapeChar ++ '"' :: ':' :: ' ' ::
      (write br depth v ++ (writeFields br depth fields ++ rest))))).Gives
      ((k, v) :: fields) more := by
  have hvalue : (write br depth v).length ≤ levels := by omega
  induction fields generalizing k v with
  | nil =>
    have hblank : ∀ rest, skip (' ' :: (write br depth v ++ rest)) = write br depth v ++ rest :=
      skip_write (hp (k, v) List.mem_cons_self) (List.forall_mem_singleton.mpr rfl) depth
    refine readFields_last (readText_escaped k _) (skip_cons (by decide) _) ?_ hmore
    rw [hblank]
    exact h (k, v) List.mem_cons_self _ depth _ hvalue hrest
  | cons f fields ih =>
    have hblank : ∀ rest, skip (' ' :: (write br depth v ++ rest)) = write br depth v ++ rest :=
      skip_write (hp (k, v) List.mem_cons_self) (List.forall_mem_singleton.mpr rfl) depth
    have hlen' : (write br depth f.2).length + (writeFields br depth fields).length ≤ levels := by
      simp only [writeFields, List.length_append, List.length_cons] at hlen
      omega
    have hread := ih hlen' (List.forall_mem_cons.mp hp).2 (List.forall_mem_cons.mp h).2 (by omega)
    rw [writeFields_append]
    apply readFields_more (readText_escaped k _) (skip_cons (by decide) _)
    · rw [hblank]
      exact h (k, v) List.mem_cons_self _ depth _ hvalue (endsNumber_cons (.inr (by decide)) _)
    · exact skip_cons (by decide) _
    · rwa [skip_append (hb depth), skip_cons (by decide)]

theorem readsBack_list (hb : br.IsBlank) {items : List Json} (hp : ∀ v ∈ items, v.IsPlain)
    (h : ∀ v ∈ items, ReadsBack br v) : ReadsBack br (.list items) := by
  intro levels depth rest hlen hrest
  cases items with
  | nil =>
    simp only [write, List.length_cons, List.length_nil] at hlen
    rw [write]
    exact readValue_emptyList (by omega) (skip_cons (by decide) _)
  | cons item items =>
    have hend : EndsNumber (br depth ++ ']' :: rest) :=
      endsNumber_append (hb depth) (endsNumber_cons (.inr (by decide)) _)
    have hskip : skip (br depth ++ ']' :: rest) = ']' :: rest := by
      rw [skip_append (hb depth), skip_cons (by decide)]
    simp only [write, List.length_append, List.length_cons, List.length_nil] at hlen
    have hread := readItems_write hb (levels - 1) (depth + 1) hend hskip (by omega) hp h
    have hitem := hp item List.mem_cons_self
    rw [write_list_append]
    refine readValue_list (by omega) ?_ ?_
    · intro t
      rw [skip_write hitem (hb _)]
      obtain ⟨c, cs, hc, -, hne, -⟩ := exists_write_append_eq_cons hitem br (depth + 1)
        (writeItems br (depth + 1) items ++ (br depth ++ ']' :: rest))
      rw [hc]
      exact fun heq => hne (List.cons.inj heq).1
    · rwa [skip_write hitem (hb _)]

theorem readsBack_object (hb : br.IsBlank) {fields : List (String × Json)}
    (hkeys : (Assoc.keys fields).Nodup) (hp : ∀ f ∈ fields, f.2.IsPlain)
    (h : ∀ f ∈ fields, ReadsBack br f.2) : ReadsBack br (.object fields) := by
  intro levels depth rest hlen hrest
  cases fields with
  | nil =>
    simp only [write, List.length_cons, List.length_nil] at hlen
    rw [write]
    exact readValue_emptyObject (by omega) (skip_cons (by decide) _)
  | cons f fields =>
    have hend : EndsNumber (br depth ++ '\x7d' :: rest) :=
      endsNumber_append (hb depth) (endsNumber_cons (.inr (by decide)) _)
    have hskip : skip (br depth ++ '\x7d' :: rest) = '\x7d' :: rest := by
      rw [skip_append (hb depth), skip_cons (by decide)]
    simp only [write, List.length_append, List.length_cons, List.length_nil] at hlen
    have hread := readFields_write hb (levels - 1) (depth + 1) hend hskip (by omega) hp h
    rw [write_object_append, ← Assoc.ofPairs_eq_self hkeys]
    refine readValue_object (by omega) ?_ ?_
    · intro t
      rw [skip_append (hb _), skip_cons (by decide)]
      exact fun heq => absurd (List.cons.inj heq).1 (by decide)
    · rwa [skip_append (hb _), skip_cons (by decide)]

theorem readsBack_of_isPlain (hb : br.IsBlank) {v : Json} (hv : v.IsPlain) : ReadsBack br v := by
  induction hv with
  | null => exact fun _ depth rest _ _ => readValue_word (by decide : 'n' ≠ '"' ∧ _) rfl
  | bool b =>
    cases b with
    | true => exact fun _ depth rest _ _ => readValue_word (by decide : 't' ≠ '"' ∧ _) rfl
    | false => exact fun _ depth rest _ _ => readValue_word (by decide : 'f' ≠ '"' ∧ _) rfl
  | int hn =>
    intro levels depth rest _ hrest
    rw [write]
    exact readValue_writeInt levels hn hrest
  | text s =>
    intro levels depth rest _ _
    rw [write, writeText, List.cons_append, List.cons_append, List.append_assoc]
    exact readValue_text (readText_escaped s rest)
  | list hp ih => exact readsBack_list hb hp ih
  | object hkeys hp ih => exact readsBack_object hb hkeys hp ih

theorem readWithin_write (hb : br.IsBlank) {v : Json} (hv : v.IsPlain) {levels : Nat} (depth : Nat)
    (hlen : (write br depth v).length ≤ levels) {rest : List Char}
    (hrest : ∀ c ∈ rest, isSpace c = true) :
    readWithin levels (write br depth v ++ rest) = .ok v := by
  have hends : EndsNumber rest := by
    rw [← List.append_nil rest]
    exact endsNumber_append hrest (by simp [EndsNumber])
  have hend : skip rest = [] := by
    rw [← List.append_nil rest]
    exact skip_append hrest []
  have hread : (readValue levels (skip (write br depth v ++ rest))).Gives v rest := by
    have hskip : skip (write br depth v ++ rest) = write br depth v ++ rest :=
      skip_write hv (List.forall_mem_nil _) depth rest
    rw [hskip]
    exact readsBack_of_isPlain hb hv levels depth rest hlen hends
  obtain ⟨_, hread⟩ := hread
  unfold readWithin
  split
  · rename_i heq
    obtain ⟨c, cs, hc, -, -, hmark⟩ := exists_write_append_eq_cons hv br depth rest
    rw [hc] at heq
    exact absurd (List.cons.inj heq).1 hmark
  · simp only [hread, hend]

theorem read_write (hb : br.IsBlank) {v : Json} (hv : v.IsPlain) (depth : Nat) {rest : List Char}
    (hrest : ∀ c ∈ rest, isSpace c = true) : read (write br depth v ++ rest) = .ok v :=
  readWithin_write hb hv depth (by simp) hrest

end Values

end WorkspaceCycles.Json
