import WorkspaceCycles.Proofs.SearchCover

namespace WorkspaceCycles

namespace Cycle

def Follows (c : List String) (a b : String) : Prop :=
  [a, b] <:+: c

theorem follows_concat_iff {c : List String} {x a b : String} :
    Follows (c ++ [x]) a b ↔ Follows c a b ∨ c.getLast? = some a ∧ x = b := by
  unfold Follows
  rw [List.infix_concat_iff, or_comm]
  apply or_congr_right
  rw [List.suffix_concat_iff]
  constructor
  · rintro (h | ⟨t, ht, hs⟩)
    · cases h
    · have hab : [a] ++ [b] = t ++ [x] := ht
      obtain ⟨rfl, hx⟩ := List.append_inj' hab rfl
      obtain ⟨u, rfl⟩ := hs
      refine ⟨by simp, ?_⟩
      simpa using hx.symm
  · rintro ⟨hl, rfl⟩
    obtain ⟨u, rfl⟩ := List.getLast?_eq_some_iff.mp hl
    exact .inr ⟨[a], rfl, List.suffix_append u [a]⟩

theorem mem_zip_tail_iff {c : List String} {x a b : String} :
    (a, b) ∈ c.zip (c.tail ++ [x]) ↔ Follows (c ++ [x]) a b := by
  induction c with
  | nil => simp [Follows, List.infix_cons_iff]
  | cons y c ih =>
    cases c with
    | nil => simp [Follows, List.infix_cons_iff, List.cons_prefix_cons]
    | cons z c =>
      have hz : (y :: z :: c).zip ((y :: z :: c).tail ++ [x]) =
          (y, z) :: (z :: c).zip ((z :: c).tail ++ [x]) := rfl
      have hf : Follows (y :: (z :: c ++ [x])) a b ↔
          (a = y ∧ b = z) ∨ Follows (z :: c ++ [x]) a b := by
        unfold Follows
        rw [List.infix_cons_iff]
        simp only [List.cons_append, List.cons_prefix_cons, List.nil_prefix, and_true]
      rw [hz, List.mem_cons, ih, Prod.mk.injEq]
      exact hf.symm

theorem mem_edges_iff {c : Cycle} {a b : String} :
    (a, b) ∈ c.edges ↔ Follows c a b ∨ c.closing? = some (a, b) := by
  cases c with
  | nil => simp [edges, Follows, closing?]
  | cons x c =>
    have hclosing : closing? (x :: c) = some (a, b) ↔
        (x :: c).getLast? = some a ∧ x = b := by
      simp [closing?, List.getLast?_cons]
    rw [hclosing]
    exact mem_zip_tail_iff.trans follows_concat_iff

theorem exists_closing? {c : Cycle} (h : c ≠ []) : ∃ e, c.closing? = some e := by
  cases c with
  | nil => exact absurd rfl h
  | cons x c =>
    refine ⟨((x :: c).getLast h, x), ?_⟩
    rw [closing?, List.getLast?_eq_some_getLast h]
    rfl

end Cycle

namespace NameGraph

namespace Search

variable {g : NameGraph}

def Scanned (s : Search g) (a b : String) : Prop :=
  s.colour a ≠ .white ∧ ∀ f ∈ s.calls, f.name = a → b ∉ f.rest

def Walked (s : Search g) (a b : String) : Prop :=
  Cycle.Follows s.path a b ∨ ∃ c ∈ s.witnesses, Cycle.Follows c a b

structure Once (s : Search g) : Prop where
  rest_nodup : ∀ f ∈ s.calls, f.rest.Nodup
  nodup : (s.witnesses.map Cycle.closing?).Nodup
  closing : ∀ a b, (a, b) ∈ Cycle.closings s.witnesses → s.Scanned a b
  walked : ∀ a b, s.Walked a b → s.Scanned a b ∧ (a, b) ∉ Cycle.closings s.witnesses

theorem once_start : Once (start g) where
  rest_nodup f hf := by cases hf
  nodup := .nil
  closing a b h := by cases h
  walked a b h := by
    rcases h with h | ⟨c, hc, -⟩
    · have hnil : [a, b] = [] := List.eq_nil_of_infix_nil h
      cases hnil
    · cases hc

namespace Once

theorem not_scanned {s : Search g} {f : Frame g} {below : List (Frame g)} {next : String}
    {rest : List String} (hs : s.calls = f :: below) (hf : f.rest = next :: rest) :
    ¬ s.Scanned f.name next := by
  intro h
  apply h.2 f (by simp [hs]) rfl
  simp [hf]

theorem scanned_pass {s : Search g} {f : Frame g} {below : List (Frame g)}
    (hs : s.calls = f :: below) {a b : String} (h : s.Scanned a b) :
    (s.pass f below).Scanned a b := by
  refine ⟨h.1, fun e he hn hb => ?_⟩
  rcases List.mem_cons.mp he with rfl | he
  · exact h.2 f (by simp [hs]) hn (List.mem_of_mem_tail hb)
  · exact h.2 e (by simp [hs, he]) hn hb

theorem pass {s : Search g} (h : Once s) {f : Frame g} {below : List (Frame g)}
    (hs : s.calls = f :: below) : Once (s.pass f below) where
  rest_nodup e he := by
    rcases List.mem_cons.mp he with rfl | he
    · exact (h.rest_nodup f (by simp [hs])).sublist (List.tail_sublist _)
    · exact h.rest_nodup e (by simp [hs, he])
  nodup := h.nodup
  closing a b hc := scanned_pass hs (h.closing a b hc)
  walked a b hw := (h.walked a b hw).imp_left (scanned_pass hs)

theorem name_ne {s : Search g} (ht : Traced s) {f : Frame g} {below : List (Frame g)}
    (hs : s.calls = f :: below) {e : Frame g} (he : e ∈ below) : e.name ≠ f.name := by
  have hn := ht.nodup
  rw [ht.path_eq_append hs] at hn
  apply (List.nodup_append.mp hn).2.2
  · exact List.mem_reverse.mpr (List.mem_map_of_mem he)
  · exact List.mem_singleton.mpr rfl

theorem scanned_next {s : Search g} (h : Once s) (ht : Traced s) {f : Frame g}
    {below : List (Frame g)} {next : String} {rest : List String} (hs : s.calls = f :: below)
    (hf : f.rest = next :: rest) : (s.pass f below).Scanned f.name next := by
  constructor
  · have hg : s.colour f.name = .grey := (ht.grey_iff f.name).mpr (by simp [ht.path_eq_append hs])
    rw [colour_pass, hg]
    simp
  · intro e he hn hb
    rcases List.mem_cons.mp he with rfl | he
    · have hd := h.rest_nodup f (by simp [hs])
      rw [hf] at hd
      apply (List.nodup_cons.mp hd).1
      simpa [Frame.advance, hf] using hb
    · exact name_ne ht hs he hn

theorem enter {s : Search g} (h : Once s) (hnb : ∀ x, (g.neighbours x).Nodup) {name : String}
    (hw : s.colour name = .white)
    (hl : ∀ a ∈ s.path.getLast?,
      s.Scanned a name ∧ (a, name) ∉ Cycle.closings s.witnesses) : Once (s.enter name) := by
  have hscan : ∀ a b, s.Scanned a b → (s.enter name).Scanned a b := by
    intro a b hs
    have hne : a ≠ name := by
      rintro rfl
      exact hs.1 hw
    refine ⟨by simp [hne, hs.1], fun f hf hn => ?_⟩
    rcases List.mem_cons.mp hf with rfl | hf
    · exact absurd hn.symm hne
    · exact hs.2 f hf hn
  have hwalked : ∀ a b, (s.enter name).Walked a b →
      s.Walked a b ∨ s.path.getLast? = some a ∧ name = b := by
    rintro a b (hp | hc)
    · rcases Cycle.follows_concat_iff.mp hp with hp | hp
      · exact .inl (.inl hp)
      · exact .inr hp
    · exact .inl (.inr hc)
  refine ⟨?_, h.nodup, fun a b hc => hscan a b (h.closing a b hc), fun a b hab => ?_⟩
  · intro f hf
    rcases List.mem_cons.mp hf with rfl | hf
    · exact hnb name
    · exact h.rest_nodup f hf
  · rcases hwalked a b hab with hab | ⟨ha, rfl⟩
    · exact (h.walked a b hab).imp_left (hscan a b)
    · exact (hl a ha).imp_left (hscan a name)

theorem leave {s : Search g} (h : Once s) {f : Frame g} {below : List (Frame g)}
    (hs : s.calls = f :: below) : Once (s.leave f below) := by
  have hscan : ∀ a b, s.Scanned a b → (s.leave f below).Scanned a b := by
    intro a b hab
    refine ⟨?_, fun e he => hab.2 e (by simp [hs, show e ∈ below from he])⟩
    rw [colour_leave]
    split <;> simp [hab.1]
  refine ⟨?_, h.nodup, fun a b hc => hscan a b (h.closing a b hc), fun a b hab => ?_⟩
  · intro e he
    exact h.rest_nodup e (by simp [hs, show e ∈ below from he])
  · have hw : s.Walked a b := by
      refine hab.imp_left fun hp => ?_
      exact List.IsInfix.trans hp (List.dropLast_prefix s.path).isInfix
    exact (h.walked a b hw).imp_left (hscan a b)

theorem record {s : Search g} (h : Once s) {i : Nat} {a b : String}
    (hc : Cycle.closing? (s.path.drop i) = some (a, b)) (hscan : s.Scanned a b)
    (hnew : (a, b) ∉ Cycle.closings s.witnesses) (hw : ¬ s.Walked a b) :
    Once (s.record (s.path.drop i)) := by
  have hclosings : ∀ e, e ∈ Cycle.closings (s.record (s.path.drop i)).witnesses ↔
      e ∈ Cycle.closings s.witnesses ∨ e = (a, b) := by
    intro e
    simp [Cycle.closings, Search.record, hc, eq_comm]
  have hwalked : ∀ x y, (s.record (s.path.drop i)).Walked x y → s.Walked x y := by
    rintro x y (hp | ⟨c, hm, hf⟩)
    · exact .inl hp
    · rcases List.mem_append.mp hm with hm | hm
      · exact .inr ⟨c, hm, hf⟩
      · rw [List.mem_singleton.mp hm] at hf
        exact .inl (List.IsInfix.trans hf (List.drop_suffix i s.path).isInfix)
  refine ⟨h.rest_nodup, ?_, ?_, ?_⟩
  · have hm : (s.record (s.path.drop i)).witnesses.map Cycle.closing? =
        s.witnesses.map Cycle.closing? ++ [some (a, b)] := by
      simp [Search.record, hc]
    rw [hm]
    refine List.nodup_append.mpr ⟨h.nodup, by simp, ?_⟩
    rintro _ hx _ hy rfl
    rw [List.mem_singleton.mp hy] at hx
    exact hnew (List.mem_filterMap.mpr (List.mem_map.mp hx))
  · intro x y hxy
    rcases (hclosings (x, y)).mp hxy with hxy | hxy
    · exact h.closing x y hxy
    · cases hxy
      exact hscan
  · intro x y hxy
    obtain ⟨hsx, hcx⟩ := h.walked x y (hwalked x y hxy)
    refine ⟨hsx, fun hm => ?_⟩
    rcases (hclosings (x, y)).mp hm with hm | hm
    · exact hcx hm
    · cases hm
      exact hw (hwalked a b hxy)

theorem move {s t : Search g} (h : Once s) (ht : Traced s) (hnb : ∀ x, (g.neighbours x).Nodup)
    (hm : Move s t) : Once t := by
  cases hm with
  | leave hs hf => exact h.leave hs
  | @enter f below next rest hs hf hc =>
    apply (h.pass hs).enter hnb hc
    intro a ha
    have hlast : s.path.getLast? = some f.name := by simp [ht.getLast?_path, hs]
    have hfa : a = f.name := Option.some.inj (ha.symm.trans hlast)
    rw [hfa]
    exact ⟨h.scanned_next ht hs hf, fun hm => not_scanned hs hf (h.closing _ _ hm)⟩
  | skip hs hf hc => exact h.pass hs
  | @record f below next rest i hs hf hc hi =>
    obtain ⟨hcl, -⟩ := ht.witness_drop hs (Traced.next_mem hf) hi
    have hnot := not_scanned hs hf
    exact (h.pass hs).record hcl (h.scanned_next ht hs hf) (fun hm => hnot (h.closing _ _ hm))
      fun hw => hnot (h.walked _ _ hw).1

theorem enter_node {s : Search g} (h : Once s) (ht : Traced s)
    (hnb : ∀ x, (g.neighbours x).Nodup) {node : String} (hc : s.calls = [])
    (hw : s.colour node = .white) : Once (s.enter node) := by
  apply h.enter hnb hw
  intro a ha
  rw [ht.getLast?_path, hc] at ha
  cases ha

end Once

theorem exists_once (hnb : ∀ x, (g.neighbours x).Nodup) :
    ∃ s, g.search = .ok s ∧ Once s := by
  obtain ⟨s, hs, ⟨-, ho⟩, -⟩ := search_induction
    (P := fun s : Search g => Traced s ∧ Once s) ⟨traced_start, once_start⟩
    (fun _ h => h.1.exists_step) (fun _ _ h hm => ⟨h.1.move hm, h.2.move h.1 hnb hm⟩)
    (fun _ _ h hc hn hw => ⟨h.1.enter_node hc hn hw, h.2.enter_node h.1 hnb hc hw⟩)
  exact ⟨s, hs, ho⟩

end Search

variable {g : NameGraph}

theorem nodup_closing_witnesses (hnb : ∀ x, (g.neighbours x).Nodup) :
    (g.witnesses.map Cycle.closing?).Nodup := by
  obtain ⟨s, hs, ho⟩ := Search.exists_once hnb
  rw [witnesses_eq hs]
  exact ho.nodup

theorem not_follows_of_closing (hnb : ∀ x, (g.neighbours x).Nodup) {c d : Cycle}
    (hc : c ∈ g.witnesses) (hd : d ∈ g.witnesses) {a b : String}
    (h : c.closing? = some (a, b)) : ¬ Cycle.Follows d a b := by
  obtain ⟨s, hs, ho⟩ := Search.exists_once hnb
  rw [witnesses_eq hs] at hc hd
  intro hf
  exact (ho.walked a b (.inr ⟨d, hd, hf⟩)).2 (List.mem_filterMap.mpr ⟨c, hc, h⟩)

theorem pairwise_not_isRotated_witnesses (hnb : ∀ x, (g.neighbours x).Nodup) :
    g.witnesses.Pairwise fun c d => ¬ c ~r d := by
  have hn := List.pairwise_map.mp (nodup_closing_witnesses hnb)
  refine hn.imp_of_mem fun {c d} hc hd hne hr => ?_
  obtain ⟨⟨a, b⟩, he⟩ := Cycle.exists_closing? (isClosedWalk_of_mem_witnesses hc).1.ne_nil
  have hmem : (a, b) ∈ Cycle.edges d :=
    Cycle.mem_edges_of_isRotated hr (Cycle.mem_edges_iff.mpr (.inr he))
  rcases Cycle.mem_edges_iff.mp hmem with hf | hcl
  · exact not_follows_of_closing hnb hc hd he hf
  · exact hne (he.trans hcl.symm)

end NameGraph

end WorkspaceCycles
