import Mathlib.Data.List.Basic

namespace WorkspaceCycles

theorem exists_of_bind_eq_ok {ε α β : Type} {x : Except ε α} {f : α → Except ε β} {b : β}
    (h : x >>= f = .ok b) : ∃ a, x = .ok a ∧ f a = .ok b := by
  cases x with
  | error e => cases h
  | ok a => exact ⟨a, rfl, h⟩

theorem exists_bind_eq_ok {ε α β : Type} {x : Except ε α} {f : α → Except ε β}
    (hx : ∃ a, x = .ok a) (hf : ∀ a, ∃ b, f a = .ok b) : ∃ b, x >>= f = .ok b := by
  obtain ⟨a, rfl⟩ := hx
  exact hf a

theorem mapError_eq_ok_iff {ε ε' α : Type} {x : Except ε α} {f : ε → ε'} {a : α} :
    x.mapError f = .ok a ↔ x = .ok a := by
  cases x <;> simp [Except.mapError]

theorem toOption_eq_some_iff {ε α : Type} {x : Except ε α} {a : α} :
    x.toOption = some a ↔ x = .ok a := by
  cases x <;> simp [Except.toOption]

theorem bind_eq_error {ε α β : Type} {x : Except ε α} {f : α → Except ε β} {e : ε} :
    x >>= f = .error e ↔ x = .error e ∨ ∃ a, x = .ok a ∧ f a = .error e := by
  cases x with
  | error e' => simp [bind, Except.bind]
  | ok a => simp [bind, Except.bind]

theorem mem_of_mapM_eq_ok {ε α β : Type} {f : α → Except ε β} {xs : List α} {ys : List β}
    (h : xs.mapM f = .ok ys) :
    (∀ x ∈ xs, ∃ y ∈ ys, f x = .ok y) ∧ ∀ y ∈ ys, ∃ x ∈ xs, f x = .ok y := by
  induction xs generalizing ys with
  | nil =>
    cases h
    simp
  | cons x xs ih =>
    rw [List.mapM_cons] at h
    obtain ⟨y, hy, h⟩ := exists_of_bind_eq_ok h
    obtain ⟨ys, hys, h⟩ := exists_of_bind_eq_ok h
    cases h
    obtain ⟨hx, hy'⟩ := ih hys
    constructor
    · refine List.forall_mem_cons.mpr ⟨⟨y, List.mem_cons_self, hy⟩, fun x' hx' => ?_⟩
      obtain ⟨y', hm, he⟩ := hx x' hx'
      exact ⟨y', List.mem_cons_of_mem _ hm, he⟩
    · refine List.forall_mem_cons.mpr ⟨⟨x, List.mem_cons_self, hy⟩, fun y' hm => ?_⟩
      obtain ⟨x', hx', he⟩ := hy' y' hm
      exact ⟨x', List.mem_cons_of_mem _ hx', he⟩

theorem mem_of_filterMapM_eq_ok {ε α β : Type} {f : α → Except ε (Option β)} {xs : List α}
    {ys : List β} (h : xs.filterMapM f = .ok ys) {y : β} :
    y ∈ ys ↔ ∃ x ∈ xs, f x = .ok (some y) := by
  induction xs generalizing ys with
  | nil =>
    cases h
    simp
  | cons x xs ih =>
    rw [List.filterMapM_cons] at h
    obtain ⟨z, hz, h⟩ := exists_of_bind_eq_ok h
    rw [List.exists_mem_cons_iff, hz]
    cases z with
    | none => simpa using ih h
    | some z =>
      obtain ⟨zs, hzs, h⟩ := exists_of_bind_eq_ok h
      cases h
      rw [List.mem_cons, ih hzs, Except.ok.injEq, Option.some_inj]
      exact or_congr_left eq_comm

theorem exists_of_filterMapM_eq_ok {ε α β : Type} {f : α → Except ε (Option β)} {xs : List α}
    {ys : List β} (h : xs.filterMapM f = .ok ys) : ∀ x ∈ xs, ∃ y, f x = .ok y := by
  induction xs generalizing ys with
  | nil => simp
  | cons x xs ih =>
    rw [List.filterMapM_cons] at h
    obtain ⟨z, hz, h⟩ := exists_of_bind_eq_ok h
    refine List.forall_mem_cons.mpr ⟨⟨z, hz⟩, ?_⟩
    cases z with
    | none => exact ih h
    | some z =>
      obtain ⟨zs, hzs, -⟩ := exists_of_bind_eq_ok h
      exact ih hzs

theorem exists_filterMapM_eq_ok {ε α β : Type} {f : α → Except ε (Option β)} {xs : List α}
    (h : ∀ x ∈ xs, ∃ y, f x = .ok y) : ∃ ys, xs.filterMapM f = .ok ys := by
  induction xs with
  | nil => exact ⟨[], rfl⟩
  | cons x xs ih =>
    obtain ⟨⟨y, hy⟩, hxs⟩ := List.forall_mem_cons.mp h
    obtain ⟨ys, hys⟩ := ih hxs
    rw [List.filterMapM_cons, hy]
    cases y with
    | none => exact ⟨ys, hys⟩
    | some y =>
      refine ⟨y :: ys, ?_⟩
      change (xs.filterMapM f >>= fun ys => pure (y :: ys)) = _
      rw [hys]
      rfl

theorem mapM_congr {ε α β : Type} {f g : α → Except ε β} {xs : List α}
    (h : ∀ x ∈ xs, f x = g x) : xs.mapM f = xs.mapM g := by
  induction xs with
  | nil => rfl
  | cons x xs ih =>
    obtain ⟨hx, hxs⟩ := List.forall_mem_cons.mp h
    rw [List.mapM_cons, List.mapM_cons, hx, ih hxs]

theorem exists_of_mapM_eq_error {ε α β : Type} {f : α → Except ε β} {xs : List α} {e : ε}
    (h : xs.mapM f = .error e) : ∃ x ∈ xs, f x = .error e := by
  induction xs with
  | nil => cases h
  | cons x xs ih =>
    rw [List.mapM_cons] at h
    rcases bind_eq_error.mp h with hx | ⟨y, -, h⟩
    · exact ⟨x, List.mem_cons_self, hx⟩
    · rcases bind_eq_error.mp h with hxs | ⟨ys, -, h⟩
      · obtain ⟨x', hx', he⟩ := ih hxs
        exact ⟨x', List.mem_cons_of_mem _ hx', he⟩
      · cases h

theorem exists_mapM_eq_ok {ε α β : Type} {f : α → Except ε β} {xs : List α}
    (h : ∀ x ∈ xs, ∃ y, f x = .ok y) : ∃ ys, xs.mapM f = .ok ys := by
  cases he : xs.mapM f with
  | ok ys => exact ⟨ys, rfl⟩
  | error e =>
    obtain ⟨x, hx, hfault⟩ := exists_of_mapM_eq_error he
    obtain ⟨y, hy⟩ := h x hx
    rw [hy] at hfault
    cases hfault

/-- Whatever fails in a search stands behind something that is found. -/
def CanSearch {ε α : Type} (p : α → Except ε Bool) (xs : List α) : Prop :=
  ∀ before x after e, xs = before ++ x :: after → p x = .error e → ∃ y ∈ before, p y = .ok true

theorem findM?_cons_of_eq_ok {ε α : Type} {p : α → Except ε Bool} {x : α} {b : Bool}
    (h : p x = .ok b) (xs : List α) :
    (x :: xs).findM? p = if b then .ok (some x) else xs.findM? p := by
  rw [List.findM?, h]
  cases b <;> rfl

theorem findM?_eq_none {ε α : Type} {p : α → Except ε Bool} {xs : List α}
    (h : ∀ x ∈ xs, p x = .ok false) : xs.findM? p = .ok none := by
  induction xs with
  | nil => rfl
  | cons x xs ih =>
    obtain ⟨hx, hxs⟩ := List.forall_mem_cons.mp h
    rw [findM?_cons_of_eq_ok hx]
    exact ih hxs

section CanSearch

variable {ε α : Type} {p : α → Except ε Bool} {x : α} {xs : List α}

theorem canSearch_nil : CanSearch p [] := by
  intro before x after e h
  simp at h

theorem canSearch_of_true (h : p x = .ok true) : CanSearch p (x :: xs) := by
  intro before y after e heq hy
  cases before with
  | nil =>
    cases heq
    rw [h] at hy
    cases hy
  | cons z before => exact ⟨x, (List.cons.inj heq).1 ▸ List.mem_cons_self, h⟩

theorem canSearch_cons_iff_of_false (h : p x = .ok false) :
    CanSearch p (x :: xs) ↔ CanSearch p xs := by
  constructor
  · intro hs before y after e heq hy
    obtain ⟨z, hz, hfound⟩ := hs (x :: before) y after e (by rw [heq, List.cons_append]) hy
    rcases List.mem_cons.mp hz with rfl | hz
    · rw [h] at hfound
      cases hfound
    · exact ⟨z, hz, hfound⟩
  · intro hs before y after e heq hy
    cases before with
    | nil =>
      cases heq
      rw [h] at hy
      cases hy
    | cons z before =>
      obtain ⟨w, hw, hfound⟩ := hs before y after e (List.cons.inj heq).2 hy
      exact ⟨w, List.mem_cons_of_mem _ hw, hfound⟩

theorem not_canSearch_of_error {e : ε} (h : p x = .error e) : ¬ CanSearch p (x :: xs) := by
  intro hs
  obtain ⟨y, hy, -⟩ := hs [] x xs e rfl h
  cases hy

theorem exists_findM?_iff : (∃ r, xs.findM? p = .ok r) ↔ CanSearch p xs := by
  induction xs with
  | nil => exact ⟨fun _ => canSearch_nil, fun _ => ⟨none, rfl⟩⟩
  | cons x xs ih =>
    cases hx : p x with
    | error e =>
      refine iff_of_false ?_ (not_canSearch_of_error hx)
      rintro ⟨r, hr⟩
      rw [List.findM?, hx] at hr
      cases hr
    | ok b =>
      rw [findM?_cons_of_eq_ok hx]
      cases b with
      | true => exact ⟨fun _ => canSearch_of_true hx, fun _ => ⟨_, rfl⟩⟩
      | false => rw [if_neg Bool.false_ne_true, canSearch_cons_iff_of_false hx, ih]

end CanSearch

theorem eq_true_of_findM?_eq_some {ε α : Type} {p : α → Except ε Bool} {xs : List α} {x : α}
    (h : xs.findM? p = .ok (some x)) : x ∈ xs ∧ p x = .ok true := by
  induction xs with
  | nil => cases h
  | cons y xs ih =>
    cases hy : p y with
    | error e =>
      rw [List.findM?, hy] at h
      cases h
    | ok b =>
      rw [findM?_cons_of_eq_ok hy] at h
      cases b with
      | true =>
        cases h
        exact ⟨List.mem_cons_self, hy⟩
      | false =>
        obtain ⟨hm, hx⟩ := ih h
        exact ⟨List.mem_cons_of_mem _ hm, hx⟩

end WorkspaceCycles
