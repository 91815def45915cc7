namespace WorkspaceCycles.Assoc

variable {α : Type _}

def keys (m : List (String × α)) : List String :=
  m.map (·.1)

def get? (m : List (String × α)) (k : String) : Option α :=
  m.lookup k

def set : List (String × α) → String → α → List (String × α)
  | [], k, v => [(k, v)]
  | (k', v') :: m, k, v => if k' = k then (k', v) :: m else (k', v') :: set m k v

def extend (m pairs : List (String × α)) : List (String × α) :=
  pairs.foldl (fun m p => set m p.1 p.2) m

def ofPairs (pairs : List (String × α)) : List (String × α) :=
  extend [] pairs

@[simp] theorem get?_nil (k : String) : get? ([] : List (String × α)) k = none := rfl

theorem get?_cons (k' : String) (v : α) (m : List (String × α)) (k : String) :
    get? ((k', v) :: m) k = if k = k' then some v else get? m k := by
  by_cases h : k = k'
  · simp [get?, h]
  · simp [get?, List.lookup_cons, beq_false_of_ne h, h]

theorem mem_of_get? {m : List (String × α)} {k : String} {v : α} (h : get? m k = some v) :
    (k, v) ∈ m := by
  induction m with
  | nil => simp at h
  | cons p m ih =>
    obtain ⟨a, b⟩ := p
    rw [get?_cons] at h
    split at h
    · simp_all
    · exact List.mem_cons_of_mem _ (ih h)

theorem get?_map_of_mem {ks : List String} {k : String} (f : String → α) (h : k ∈ ks) :
    get? (ks.map fun k => (k, f k)) k = some (f k) := by
  induction ks with
  | nil => simp at h
  | cons k' ks ih =>
    rw [List.map_cons, get?_cons]
    split
    · simp_all
    · exact ih ((List.mem_cons.1 h).resolve_left ‹_›)

theorem get?_map_of_not_mem {ks : List String} {k : String} (f : String → α) (h : k ∉ ks) :
    get? (ks.map fun k => (k, f k)) k = none := by
  induction ks with
  | nil => rfl
  | cons k' ks ih =>
    simp only [List.mem_cons, not_or] at h
    rw [List.map_cons, get?_cons, if_neg h.1, ih h.2]

theorem get?_set (m : List (String × α)) (k k' : String) (v : α) :
    get? (set m k v) k' = if k' = k then some v else get? m k' := by
  induction m with
  | nil => simp [set, get?_cons]
  | cons p m ih =>
    obtain ⟨a, b⟩ := p
    by_cases h : a = k
    · subst h; by_cases h' : k' = a <;> simp [set, get?_cons, h']
    · by_cases h' : k' = a
      · subst h'; simp [set, get?_cons, h]
      · simp [set, get?_cons, h, h', ih]

theorem set_of_get? {m : List (String × α)} {k : String} {v : α} (h : get? m k = some v) :
    set m k v = m := by
  induction m with
  | nil => simp at h
  | cons p m ih =>
    obtain ⟨a, b⟩ := p
    rw [get?_cons] at h
    by_cases ha : a = k
    · rw [if_pos ha.symm] at h
      rw [set, if_pos ha, Option.some.inj h]
    · rw [if_neg (Ne.symm ha)] at h
      rw [set, if_neg ha, ih h]

theorem keys_set (m : List (String × α)) (k : String) (v : α) :
    keys (set m k v) = if k ∈ keys m then keys m else keys m ++ [k] := by
  induction m with
  | nil => simp [set, keys]
  | cons p m ih =>
    obtain ⟨a, b⟩ := p
    by_cases h : a = k
    · subst h; simp [set, keys]
    · have h' : k ≠ a := fun e => h e.symm
      simp only [keys] at ih
      by_cases hk : k ∈ m.map (·.1) <;> simp_all [set, keys]

theorem mem_of_get?_extend {m pairs : List (String × α)} {k : String} {v : α}
    (h : get? (extend m pairs) k = some v) : get? m k = some v ∨ (k, v) ∈ pairs := by
  induction pairs generalizing m with
  | nil => exact .inl h
  | cons p pairs ih =>
    obtain ⟨a, b⟩ := p
    rcases ih (m := set m a b) h with h | h
    · rw [get?_set] at h
      split at h
      · simp_all
      · exact .inl h
    · exact .inr (List.mem_cons_of_mem _ h)

theorem mem_of_get?_ofPairs {pairs : List (String × α)} {k : String} {v : α}
    (h : get? (ofPairs pairs) k = some v) : (k, v) ∈ pairs :=
  (mem_of_get?_extend h).resolve_left (by simp)

theorem set_of_not_mem {m : List (String × α)} {k : String} (h : k ∉ keys m) (v : α) :
    set m k v = m ++ [(k, v)] := by
  induction m with
  | nil => rfl
  | cons p m ih =>
    simp only [keys, List.map_cons, List.mem_cons, not_or] at h
    rw [set, if_neg fun e => h.1 e.symm, ih h.2, List.cons_append]

theorem extend_of_nodup {m pairs : List (String × α)} (h : (keys (m ++ pairs)).Nodup) :
    extend m pairs = m ++ pairs := by
  induction pairs generalizing m with
  | nil => simp [extend]
  | cons p pairs ih =>
    have hp : p.1 ∉ keys m := by
      simp only [keys, List.map_append, List.map_cons, List.nodup_append] at h
      exact fun hmem => h.2.2 _ hmem _ List.mem_cons_self rfl
    have hassoc : m ++ p :: pairs = m ++ [p] ++ pairs := by simp
    rw [hassoc] at h ⊢
    rw [← ih h]
    exact congrArg (extend · pairs) (set_of_not_mem hp p.2)

theorem ofPairs_eq_self {pairs : List (String × α)} (h : (keys pairs).Nodup) :
    ofPairs pairs = pairs :=
  extend_of_nodup (m := []) h

end WorkspaceCycles.Assoc
