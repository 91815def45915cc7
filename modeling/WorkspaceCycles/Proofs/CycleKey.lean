import Mathlib.Data.List.Rotate
import Mathlib.Data.List.TakeWhile
import WorkspaceCycles.Cycle

/-!
Keys of cycles. The least member of a cycle does not depend on where the cycle is cut, so all
rotations of a cycle with distinct members have one key; and as long as no separator begins in a
member, the key can be read back.
-/

namespace WorkspaceCycles.Cycle

structure Plain (c : Cycle) : Prop where
  nodup : c.Nodup
  spaceless : ∀ x ∈ c, ' ' ∉ x.toList

theorem foldl_least (c : List String) (a : String) :
    c.foldl (fun m b => if b < m then b else m) a ∈ a :: c ∧
      ∀ x ∈ a :: c, c.foldl (fun m b => if b < m then b else m) a ≤ x := by
  induction c generalizing a with
  | nil => simp
  | cons b c ih =>
    rw [List.foldl_cons]
    obtain ⟨hm, hle⟩ := ih (if b < a then b else a)
    have hab : (if b < a then b else a) ≤ a ∧ (if b < a then b else a) ≤ b := by
      split
      · rename_i h
        exact ⟨String.not_lt.mp (String.lt_asymm h), String.le_refl b⟩
      · rename_i h
        exact ⟨String.le_refl a, String.not_lt.mp h⟩
    refine ⟨?_, ?_⟩
    · rcases List.mem_cons.mp hm with h | h
      · rw [h]
        split <;> simp
      · exact List.mem_cons_of_mem _ (List.mem_cons_of_mem _ h)
    · intro x hx
      rcases List.mem_cons.mp hx with rfl | hx
      · exact String.le_trans (hle _ List.mem_cons_self) hab.1
      · rcases List.mem_cons.mp hx with rfl | hx
        · exact String.le_trans (hle _ List.mem_cons_self) hab.2
        · exact hle x (List.mem_cons_of_mem _ hx)

theorem least?_eq_some_iff {c : Cycle} {m : String} :
    c.least? = some m ↔ m ∈ c ∧ ∀ x ∈ c, m ≤ x := by
  cases c with
  | nil => simp [least?]
  | cons a c =>
    obtain ⟨hm, hle⟩ := foldl_least c a
    rw [least?, Option.some_inj]
    constructor
    · rintro rfl
      exact ⟨hm, hle⟩
    · rintro ⟨hm', hle'⟩
      exact String.le_antisymm (hle m hm') (hle' _ hm)

theorem least?_eq_none_iff {c : Cycle} : c.least? = none ↔ c = [] := by
  cases c <;> simp [least?]

theorem least?_eq_of_isRotated {c d : Cycle} (h : c ~r d) : c.least? = d.least? := by
  apply Option.ext
  intro m
  rw [least?_eq_some_iff, least?_eq_some_iff]
  simp only [h.mem_iff]

theorem rotateToLeast_isRotated (c : Cycle) : rotateToLeast c ~r c := by
  unfold rotateToLeast
  split
  · rename_i h
    rw [least?_eq_none_iff.mp h]
  · rename_i m _
    have hr : c.dropWhile (· != m) ++ c.takeWhile (· != m) ~r
        c.takeWhile (· != m) ++ c.dropWhile (· != m) := List.isRotated_append
    rwa [List.takeWhile_append_dropWhile] at hr

theorem rotateToLeast_ne_nil {c : Cycle} (h : c ≠ []) : rotateToLeast c ≠ [] := by
  intro hn
  have hr := rotateToLeast_isRotated c
  rw [hn, List.isRotated_nil_iff'] at hr
  exact h hr.symm

theorem head?_rotateToLeast (c : Cycle) : (rotateToLeast c).head? = c.least? := by
  unfold rotateToLeast
  split
  · rename_i h
    rw [h]
    rfl
  · rename_i m h
    obtain ⟨hm, -⟩ := least?_eq_some_iff.mp h
    have hd : (c.dropWhile (· != m)).head? = some m := by
      have hfirst := List.head?_dropWhile_not (· != m) c
      cases hdrop : c.dropWhile (· != m) with
      | nil =>
        have hall := List.dropWhile_eq_nil_iff.mp hdrop m hm
        simp at hall
      | cons x rest =>
        rw [hdrop] at hfirst
        simpa using hfirst
    rw [h, List.head?_append, hd]
    rfl

theorem eq_of_isRotated {c d : List String} (h : c ~r d) (hn : c.Nodup)
    (hh : c.head? = d.head?) : c = d := by
  obtain ⟨n, hlt, rfl⟩ := List.isRotated_iff_mod.mp h
  rcases Nat.lt_or_eq_of_le hlt with hlt | rfl
  · have h0 : 0 < c.length := by omega
    rw [List.head?_rotate hlt, List.head?_eq_getElem?, List.getElem?_eq_getElem h0,
      List.getElem?_eq_getElem hlt, Option.some_inj, hn.getElem_inj_iff] at hh
    rw [← hh, List.rotate_zero]
  · rw [List.rotate_length]

theorem rotateToLeast_eq_of_isRotated {c d : Cycle} (h : c ~r d) (hn : c.Nodup) :
    rotateToLeast c = rotateToLeast d := by
  apply eq_of_isRotated
  · exact (rotateToLeast_isRotated c).trans (h.trans (rotateToLeast_isRotated d).symm)
  · exact (rotateToLeast_isRotated c).nodup_iff.mpr hn
  · rw [head?_rotateToLeast, head?_rotateToLeast, least?_eq_of_isRotated h]

theorem key_eq_of_isRotated {c d : Cycle} (h : c ~r d) (hn : c.Nodup) : c.key = d.key := by
  rw [key, key, rotateToLeast_eq_of_isRotated h hn]

def separator : List Char :=
  [' ', '-', '>', ' ']

theorem chain_singleton (a : String) : chain [a] = a := by
  simp [chain]

theorem toList_chain_cons_cons (a b : String) (c : Cycle) :
    (chain (a :: b :: c)).toList = a.toList ++ (separator ++ (chain (b :: c)).toList) := by
  rw [chain, String.intercalate_cons_cons, String.toList_append, String.toList_append,
    List.append_assoc]
  rfl

/-- No separator begins within the name, whatever stands behind it: one that begins there lies in
the name or ends with the space that the next separator begins with. -/
def Separable (x : String) : Prop :=
  ¬ separator <:+: x.toList ++ [' ']

instance (x : String) : Decidable (Separable x) :=
  inferInstanceAs (Decidable (¬ _))

theorem Separable.of_spaceless {x : String} (h : ' ' ∉ x.toList) : Separable x := by
  rintro ⟨before, after, he⟩
  have hinit := congrArg List.dropLast he
  rw [List.dropLast_concat, List.append_assoc, List.dropLast_append_of_ne_nil (by simp [separator]),
    separator, List.cons_append, List.dropLast_cons_of_ne_nil (by simp)] at hinit
  exact h (hinit ▸ by simp)

theorem Separable.not_infix {x : String} (h : Separable x) : ¬ separator <:+: x.toList :=
  fun hi => h (hi.trans (List.prefix_append _ _).isInfix)

theorem Plain.separable {c : Cycle} (h : c.Plain) : ∀ x ∈ c, Separable x :=
  fun x hx => .of_spaceless (h.spaceless x hx)

theorem Separable.eq_nil_of_append_eq {x : String} {y t r r' : List Char} (h : Separable x)
    (hx : x.toList = y ++ t) (he : separator ++ r = t ++ (separator ++ r')) : t = [] := by
  simp only [separator, List.cons_append, List.nil_append] at he
  match t, hx, he with
  | [], _, _ => rfl
  | [_], _, he => simp at he
  | [_, _], _, he => simp at he
  | [a, b, d], hx, he =>
    -- the name ends with the separator but for its last space
    simp only [List.cons_append, List.cons.injEq] at he
    obtain ⟨rfl, rfl, rfl, -⟩ := he
    exact absurd ⟨y, [], by simp [hx, separator]⟩ h
  | a :: b :: d :: e :: t, hx, he =>
    simp only [List.cons_append, List.cons.injEq] at he
    obtain ⟨rfl, rfl, rfl, rfl, -⟩ := he
    exact absurd ⟨y, t, by simp [hx, separator]⟩ h.not_infix

theorem Separable.append_inj {x y : String} (hx : Separable x) (hy : Separable y)
    {r r' : List Char} (h : x.toList ++ (separator ++ r) = y.toList ++ (separator ++ r')) :
    x = y ∧ r = r' := by
  have hxy : x.toList = y.toList := by
    rcases List.append_eq_append_iff.mp h with ⟨t, hyt, he⟩ | ⟨t, hxt, he⟩
    · rw [hyt, hy.eq_nil_of_append_eq hyt he, List.append_nil]
    · rw [hxt, hx.eq_nil_of_append_eq hxt he, List.append_nil]
  obtain rfl := String.toList_inj.mp hxy
  exact ⟨rfl, List.append_cancel_left (List.append_cancel_left h)⟩

theorem Separable.chain_singleton_ne {x : String} (h : Separable x) (a b : String) (c : Cycle) :
    chain [x] ≠ chain (a :: b :: c) := by
  intro he
  have ht := congrArg String.toList he
  rw [toList_chain_cons_cons, chain_singleton] at ht
  exact h.not_infix (ht ▸ ⟨a.toList, _, List.append_assoc _ _ _⟩)

theorem eq_of_chain_eq {c d : Cycle} (hc : c ≠ []) (hd : d ≠ [])
    (hc' : ∀ x ∈ c, Separable x) (hd' : ∀ x ∈ d, Separable x) (h : c.chain = d.chain) :
    c = d := by
  induction c generalizing d with
  | nil => exact absurd rfl hc
  | cons a c ih =>
    cases d with
    | nil => exact absurd rfl hd
    | cons b d =>
      have ha := hc' a List.mem_cons_self
      have hb := hd' b List.mem_cons_self
      cases c with
      | nil =>
        cases d with
        | nil => simpa only [chain_singleton, List.cons.injEq, and_true] using h
        | cons b' d => exact absurd h (ha.chain_singleton_ne b b' d)
      | cons a' c =>
        cases d with
        | nil => exact absurd h.symm (hb.chain_singleton_ne a a' c)
        | cons b' d =>
          have ht := congrArg String.toList h
          rw [toList_chain_cons_cons, toList_chain_cons_cons] at ht
          obtain ⟨rfl, hrest⟩ := ha.append_inj hb ht
          rw [ih (by simp) (by simp) (fun x hx => hc' x (List.mem_cons_of_mem _ hx))
            (fun x hx => hd' x (List.mem_cons_of_mem _ hx)) (String.toList_inj.mp hrest)]

theorem Plain.of_isRotated {c d : Cycle} (h : c ~r d) (hp : c.Plain) : d.Plain :=
  ⟨h.nodup_iff.mp hp.nodup, fun x hx => hp.spaceless x (h.mem_iff.mpr hx)⟩

theorem isRotated_of_key_eq {c d : Cycle} (hc : c ≠ []) (hd : d ≠ [])
    (hc' : ∀ x ∈ c, Separable x) (hd' : ∀ x ∈ d, Separable x) (h : c.key = d.key) : c ~r d := by
  have he : rotateToLeast c = rotateToLeast d := by
    apply eq_of_chain_eq (rotateToLeast_ne_nil hc) (rotateToLeast_ne_nil hd) _ _ h
    · exact fun x hx => hc' x ((rotateToLeast_isRotated c).mem_iff.mp hx)
    · exact fun x hx => hd' x ((rotateToLeast_isRotated d).mem_iff.mp hx)
  exact (rotateToLeast_isRotated c).symm.trans (he ▸ rotateToLeast_isRotated d)

theorem key_eq_iff {c d : Cycle} (hc : c ≠ []) (hd : d ≠ []) (hpc : c.Plain) (hpd : d.Plain) :
    c.key = d.key ↔ c ~r d :=
  ⟨isRotated_of_key_eq hc hd hpc.separable hpd.separable,
    fun h => key_eq_of_isRotated h hpc.nodup⟩

end WorkspaceCycles.Cycle
