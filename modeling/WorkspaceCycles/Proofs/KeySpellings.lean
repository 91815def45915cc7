import Mathlib.Data.List.Pairwise
import WorkspaceCycles.Proofs.SettingsRules

/-!
The two spellings of a key. A schema says where in a document which keys are known. Rules that look
a field up in both spellings make the same of two documents that differ only in how the known keys
are spelled, as long as no field is given twice.
-/

namespace WorkspaceCycles

theorem Assoc.get?_eq_none {α : Type} {m : List (String × α)} {k : String}
    (h : ∀ p ∈ m, p.1 ≠ k) : get? m k = none := by
  by_contra hne
  obtain ⟨v, hv⟩ := Option.ne_none_iff_exists'.mp hne
  exact h _ (mem_of_get? hv) rfl

namespace Validated

variable {α β : Type}

def respell (spell : String → String) : Validated α → Validated α
  | .valid a => .valid a
  | .invalid vs => .invalid (vs.map fun v => { v with place := v.place.map spell })

variable (spell : String → String)

theorem respell_eq_valid {v : Validated α} {a : α} : v.respell spell = .valid a ↔ v = .valid a := by
  cases v <;> simp [respell]

theorem respell_map (f : α → β) (v : Validated α) :
    (f <$> v).respell spell = f <$> v.respell spell := by
  cases v <;> rfl

theorem respell_seq (f : Validated (α → β)) (v : Validated α) :
    (f <*> v).respell spell = f.respell spell <*> v.respell spell := by
  cases f with
  | valid => cases v <;> rfl
  | invalid vs =>
    cases v with
    | valid => rfl
    | invalid ws => exact congrArg invalid List.map_append

theorem respell_inside (k : String) (v : Validated α) :
    (v.inside k).respell spell = (v.respell spell).inside (spell k) := by
  cases v <;> simp [inside, respell]

end Validated

namespace Validation

namespace FieldName

def Spells (n : FieldName) (k : String) : Prop :=
  k = n.camel ∨ k = n.snake

instance (n : FieldName) (k : String) : Decidable (n.Spells k) :=
  inferInstanceAs (Decidable (_ ∨ _))

def IsApart (m n : FieldName) : Prop :=
  m.camel ≠ n.camel ∧ m.camel ≠ n.snake ∧ m.snake ≠ n.camel ∧ m.snake ≠ n.snake

instance (m n : FieldName) : Decidable (m.IsApart n) :=
  inferInstanceAs (Decidable (_ ∧ _))

theorem IsApart.symm {m n : FieldName} (h : m.IsApart n) : n.IsApart m :=
  ⟨h.1.symm, h.2.2.1.symm, h.2.1.symm, h.2.2.2.symm⟩

theorem IsApart.not_spells {m n : FieldName} (h : m.IsApart n) {k : String} (hm : m.Spells k) :
    ¬ n.Spells k := by
  obtain ⟨hcc, hcs, hsc, hss⟩ := h
  rcases hm with rfl | rfl
  · exact fun hn => hn.elim hcc hcs
  · exact fun hn => hn.elim hsc hss

theorem find?_cons_of_not_spells {n : FieldName} {k : String} (h : ¬ n.Spells k) (v : Value)
    (fields : Fields) : n.find? ((k, v) :: fields) = n.find? fields := by
  have hcamel : n.camel ≠ k := fun he => h (.inl he.symm)
  have hsnake : n.snake ≠ k := fun he => h (.inr he.symm)
  simp only [find?, Assoc.get?_cons, if_neg hcamel, if_neg hsnake]

theorem find?_cons_of_spells {n : FieldName} {k : String} (h : n.Spells k) (v : Value)
    {fields : Fields} (hrest : ∀ f ∈ fields, ¬ n.Spells f.1) :
    n.find? ((k, v) :: fields) = some (k, v) := by
  have hnone : Assoc.get? fields n.camel = none :=
    Assoc.get?_eq_none fun f hf he => hrest f hf (.inl he)
  unfold find?
  rw [Assoc.get?_cons, Assoc.get?_cons]
  by_cases hcamel : n.camel = k
  · rw [if_pos hcamel, hcamel]
  · obtain rfl : k = n.snake := h.resolve_left (Ne.symm hcamel)
    rw [if_neg hcamel, hnone, if_pos rfl]
    rfl

end FieldName

inductive Schema where
  | leaf
  | list (item : Schema)
  | record (known : List (FieldName × Schema))

def GivenOnce (known : List (FieldName × Schema)) (fields : Fields) : Prop :=
  fields.Pairwise fun f g => ∀ p ∈ known, p.1.Spells f.1 → ¬ p.1.Spells g.1

instance (known : List (FieldName × Schema)) (fields : Fields) :
    Decidable (GivenOnce known fields) :=
  inferInstanceAs (Decidable (List.Pairwise _ _))

mutual

/-- Some of the known keys are spelled in the other way, at any depth. -/
inductive Respelled : Schema → Value → Value → Prop
  | same (s : Schema) (v : Value) : Respelled s v v
  | list {s : Schema} {vs ws : List Value} (h : RespelledItems s vs ws) :
      Respelled (.list s) (.list vs) (.list ws)
  | record {known : List (FieldName × Schema)} {fields fields' : Fields}
      (once : GivenOnce known fields) (h : RespelledFields known fields fields') :
      Respelled (.record known) (.record fields) (.record fields')

inductive RespelledItems : Schema → List Value → List Value → Prop
  | nil (s : Schema) : RespelledItems s [] []
  | cons {s : Schema} {v w : Value} {vs ws : List Value} (h : Respelled s v w)
      (hrest : RespelledItems s vs ws) : RespelledItems s (v :: vs) (w :: ws)

inductive RespelledFields : List (FieldName × Schema) → Fields → Fields → Prop
  | nil (known : List (FieldName × Schema)) : RespelledFields known [] []
  | other {known : List (FieldName × Schema)} (f : String × Value) {fields fields' : Fields}
      (hrest : RespelledFields known fields fields') :
      RespelledFields known (f :: fields) (f :: fields')
  | known {known : List (FieldName × Schema)} {n : FieldName} {s : Schema} {k k' : String}
      {v w : Value} {fields fields' : Fields} (hn : (n, s) ∈ known) (hk : n.Spells k)
      (hk' : n.Spells k') (hv : Respelled s v w) (hrest : RespelledFields known fields fields') :
      RespelledFields known ((k, v) :: fields) ((k', w) :: fields')

end

structure IsClear (spell : String → String) (known : List (FieldName × Schema)) : Prop where
  apart : known.Pairwise fun p q => p.1.IsApart q.1
  spell_eq : ∀ p ∈ known, spell p.1.camel = spell p.1.snake

namespace IsClear

variable {spell : String → String} {known : List (FieldName × Schema)}

theorem eq_of_spells (h : IsClear spell known) {p q : FieldName × Schema} (hp : p ∈ known)
    (hq : q ∈ known) {k : String} (hpk : p.1.Spells k) (hqk : q.1.Spells k) : p = q := by
  by_contra hne
  have : Std.Symm fun p q : FieldName × Schema => p.1.IsApart q.1 :=
    ⟨fun _ _ => FieldName.IsApart.symm⟩
  exact (h.apart.forall hp hq hne).not_spells hpk hqk

theorem spell_of_spells (h : IsClear spell known) {p : FieldName × Schema} (hp : p ∈ known)
    {k k' : String} (hk : p.1.Spells k) (hk' : p.1.Spells k') : spell k = spell k' := by
  have he := h.spell_eq p hp
  rcases hk with rfl | rfl <;> rcases hk' with rfl | rfl <;> simp [he]

theorem nodup_camel (h : IsClear spell known) : (known.map (·.1.camel)).Nodup :=
  List.pairwise_map.mpr (h.apart.imp And.left)

variable {n : FieldName} {s : Schema} {fields fields' : Fields}

theorem not_spells (hc : IsClear spell known) (hn : (n, s) ∈ known)
    (h : RespelledFields known fields fields') (hnone : ∀ f ∈ fields, ¬ n.Spells f.1) :
    ∀ f ∈ fields', ¬ n.Spells f.1 := by
  induction fields generalizing fields' with
  | nil =>
    cases h
    simp
  | cons f fields ih =>
    obtain ⟨hfirst, hlater⟩ := List.forall_mem_cons.mp hnone
    cases h with
    | other _ hrest => exact List.forall_mem_cons.mpr ⟨hfirst, ih hrest hlater⟩
    | known hm hk hk' hv hrest =>
      refine List.forall_mem_cons.mpr ⟨fun hs => hfirst ?_, ih hrest hlater⟩
      cases hc.eq_of_spells hn hm hs hk'
      exact hk

theorem find?_respelled (hc : IsClear spell known) (hn : (n, s) ∈ known)
    (once : GivenOnce known fields) (h : RespelledFields known fields fields') :
    (n.find? fields = none ∧ n.find? fields' = none) ∨
      ∃ k v k' w, n.find? fields = some (k, v) ∧ n.find? fields' = some (k', w) ∧
        n.Spells k ∧ n.Spells k' ∧ Respelled s v w := by
  induction fields generalizing fields' with
  | nil =>
    cases h
    exact .inl ⟨rfl, rfl⟩
  | cons f fields ih =>
    obtain ⟨k, v⟩ := f
    obtain ⟨hfirst, honce⟩ := List.pairwise_cons.mp once
    -- the field is either given here, and then nowhere else, or it is looked for in the rest
    have hnone : n.Spells k → ∀ g ∈ fields, ¬ n.Spells g.1 :=
      fun hk g hg => hfirst g hg (n, s) hn hk
    cases h with
    | other _ hrest =>
      by_cases hk : n.Spells k
      · exact .inr ⟨k, v, k, v, FieldName.find?_cons_of_spells hk v (hnone hk),
          FieldName.find?_cons_of_spells hk v (hc.not_spells hn hrest (hnone hk)), hk, hk,
          .same s v⟩
      · rw [FieldName.find?_cons_of_not_spells hk, FieldName.find?_cons_of_not_spells hk]
        exact ih honce hrest
    | known hm hkm hkm' hv hrest =>
      by_cases hk : n.Spells k
      · cases hc.eq_of_spells hn hm hk hkm
        exact .inr ⟨k, v, _, _, FieldName.find?_cons_of_spells hk v (hnone hk),
          FieldName.find?_cons_of_spells hkm' _ (hc.not_spells hn hrest (hnone hk)), hk, hkm', hv⟩
      · rw [FieldName.find?_cons_of_not_spells hk, FieldName.find?_cons_of_not_spells]
        · exact ih honce hrest
        · intro hs
          cases hc.eq_of_spells hn hm hs hkm'
          exact hk hkm

end IsClear

section Rules

variable {α β : Type}

def Respects (spell : String → String) (s : Schema) (rule : Rule α) : Prop :=
  ∀ v w, Respelled s v w → (rule v).respell spell = (rule w).respell spell

def ReadsAlike (spell : String → String) (known : List (FieldName × Schema))
    (read : Fields → Validated α) : Prop :=
  ∀ fields fields', GivenOnce known fields → RespelledFields known fields fields' →
    (read fields).respell spell = (read fields').respell spell

variable {spell : String → String} {s : Schema} {known : List (FieldName × Schema)}

theorem Respects.leaf (rule : Rule α) : Respects spell .leaf rule := by
  intro v w h
  cases h
  rfl

theorem items_respelled {rule : Rule α} (h : Respects spell s rule) {vs ws : List Value}
    (hvs : RespelledItems s vs ws) (index : Nat) :
    (items rule index vs).respell spell = (items rule index ws).respell spell := by
  induction vs generalizing ws index with
  | nil =>
    cases hvs
    rfl
  | cons v vs ih =>
    cases hvs with
    | cons hv hrest =>
      rw [items, items, Validated.respell_seq, Validated.respell_seq, Validated.respell_map,
        Validated.respell_map, Validated.respell_inside, Validated.respell_inside, h _ _ hv,
        ih hrest]

theorem Respects.list {rule : Rule α} (h : Respects spell s rule) :
    Respects spell (.list s) (Validation.list rule) := by
  intro v w hv
  cases hv with
  | same => rfl
  | list hitems => exact items_respelled h hitems 0

theorem Respects.record {read : Fields → Validated α} (h : ReadsAlike spell known read)
    (kind : String) : Respects spell (.record known) (Validation.record kind read) := by
  intro v w hv
  cases hv with
  | same => rfl
  | record once hfields => exact h _ _ once hfields

namespace ReadsAlike

theorem map (f : α → β) {read : Fields → Validated α} (h : ReadsAlike spell known read) :
    ReadsAlike spell known fun fields => f <$> read fields := by
  intro fields fields' once hf
  rw [Validated.respell_map, Validated.respell_map, h fields fields' once hf]

theorem seq {read : Fields → Validated (α → β)} {last : Fields → Validated α}
    (h : ReadsAlike spell known read) (hlast : ReadsAlike spell known last) :
    ReadsAlike spell known fun fields => read fields <*> last fields := by
  intro fields fields' once hf
  rw [Validated.respell_seq, Validated.respell_seq, h fields fields' once hf,
    hlast fields fields' once hf]

variable {n : FieldName} {rule : Rule α}

theorem withDefault (hc : IsClear spell known) (hn : (n, s) ∈ known) (h : Respects spell s rule)
    (absent : α) : ReadsAlike spell known (Validation.withDefault n rule absent) := by
  intro fields fields' once hf
  unfold Validation.withDefault
  rcases hc.find?_respelled hn once hf with ⟨hnone, hnone'⟩ | ⟨k, v, k', w, hv, hw, hk, hk', hr⟩
  · rw [hnone, hnone']
  · simp only [hv, hw]
    rw [Validated.respell_inside, Validated.respell_inside, h v w hr, hc.spell_of_spells hn hk hk']

theorem leaf (hc : IsClear spell known) (hn : (n, .leaf) ∈ known) (absent : α) :
    ReadsAlike spell known (Validation.withDefault n rule absent) :=
  .withDefault hc hn (.leaf rule) absent

theorem required (hc : IsClear spell known) (hn : (n, s) ∈ known) (h : Respects spell s rule) :
    ReadsAlike spell known (Validation.required n rule) := by
  intro fields fields' once hf
  unfold Validation.required
  rcases hc.find?_respelled hn once hf with ⟨hnone, hnone'⟩ | ⟨k, v, k', w, hv, hw, hk, hk', hr⟩
  · rw [hnone, hnone']
  · simp only [hv, hw]
    rw [Validated.respell_inside, Validated.respell_inside, h v w hr, hc.spell_of_spells hn hk hk']

end ReadsAlike

end Rules

end Validation

end WorkspaceCycles
