/-! Finite maps with 32-bit keys, listed in ascending order of their keys. The order makes the list of
    entries a normal form: two maps with the same lookups are equal (`ext_get?`). -/

namespace StateSync

structure SortedMap (α : Type) where
  entries : List (UInt32 × α)
  sorted : entries.Pairwise fun a b => a.1 < b.1

namespace SortedMap
variable {α : Type}

instance [DecidableEq α] : DecidableEq (SortedMap α) := fun m n =>
  decidable_of_iff (m.entries = n.entries) ⟨fun h => by cases m; cases n; simp_all, fun h => by rw [h]⟩

def empty : SortedMap α := ⟨[], List.Pairwise.nil⟩

instance : Inhabited (SortedMap α) := ⟨empty⟩

def keys (m : SortedMap α) : List UInt32 := m.entries.map (·.1)

/-- The values, by ascending key. -/
def values (m : SortedMap α) : List α := m.entries.map (·.2)

def size (m : SortedMap α) : Nat := m.entries.length

/-! ### Entries -/

def lookup (k : UInt32) : List (UInt32 × α) → Option α
  | [] => none
  | e :: es => if e.1 = k then some e.2 else lookup k es

/-- Places an entry behind the smaller keys, over an entry of the same key. -/
def put (k : UInt32) (x : α) : List (UInt32 × α) → List (UInt32 × α)
  | [] => [(k, x)]
  | e :: es => if e.1 < k then e :: put k x es else if e.1 = k then (k, x) :: es else (k, x) :: e :: es

theorem mem_put {k : UInt32} {x : α} {e' : UInt32 × α} : ∀ {es : List (UInt32 × α)},
    e' ∈ put k x es → e' = (k, x) ∨ e' ∈ es
  | [], h => by simpa [put] using h
  | e :: es, h => by
    by_cases hlt : e.1 < k
    · rw [put, if_pos hlt] at h
      rcases List.mem_cons.mp h with h | h
      · exact Or.inr (h ▸ List.mem_cons_self ..)
      · exact (mem_put h).imp id (List.mem_cons_of_mem _)
    · by_cases heq : e.1 = k
      · rw [put, if_neg hlt, if_pos heq] at h
        exact (List.mem_cons.mp h).imp id (List.mem_cons_of_mem _)
      · rw [put, if_neg hlt, if_neg heq] at h
        exact List.mem_cons.mp h

theorem sorted_put {k : UInt32} {x : α} : ∀ {es : List (UInt32 × α)},
    es.Pairwise (fun a b => a.1 < b.1) → (put k x es).Pairwise fun a b => a.1 < b.1
  | [], _ => by simp [put]
  | e :: es, h => by
    have hes := List.pairwise_cons.mp h
    by_cases hlt : e.1 < k
    · rw [put, if_pos hlt]
      refine List.pairwise_cons.mpr ⟨fun a ha => ?_, sorted_put hes.2⟩
      rcases mem_put ha with rfl | ha
      · exact hlt
      · exact hes.1 a ha
    · by_cases heq : e.1 = k
      · subst heq
        rw [put, if_neg hlt, if_pos rfl]
        exact List.pairwise_cons.mpr ⟨hes.1, hes.2⟩
      · rw [put, if_neg hlt, if_neg heq]
        have hk : k < e.1 := UInt32.lt_of_le_of_ne (UInt32.not_lt.mp hlt) (Ne.symm heq)
        refine List.pairwise_cons.mpr ⟨fun a ha => ?_, h⟩
        rcases List.mem_cons.mp ha with rfl | ha
        · exact hk
        · exact UInt32.lt_trans hk (hes.1 a ha)

/-! ### Operations -/

def get? (m : SortedMap α) (k : UInt32) : Option α := lookup k m.entries

def contains (m : SortedMap α) (k : UInt32) : Bool := (m.get? k).isSome

def insert (m : SortedMap α) (k : UInt32) (x : α) : SortedMap α := ⟨put k x m.entries, sorted_put m.sorted⟩

def filterKeys (m : SortedMap α) (p : UInt32 → Bool) : SortedMap α :=
  ⟨m.entries.filter fun e => p e.1, m.sorted.sublist List.filter_sublist⟩

def erase (m : SortedMap α) (k : UInt32) : SortedMap α := m.filterKeys (· ≠ k)

def above (m : SortedMap α) (k : UInt32) : SortedMap α := m.filterKeys (k < ·)

def greatest (m : SortedMap α) (n : Nat) : SortedMap α :=
  ⟨m.entries.drop (m.size - n), m.sorted.sublist (List.drop_sublist _ _)⟩

/-! ### What the operations do to `get?` -/

@[simp] theorem get?_empty (k : UInt32) : (empty : SortedMap α).get? k = none := rfl

theorem lookup_put (k k' : UInt32) (x : α) : ∀ es : List (UInt32 × α),
    lookup k' (put k x es) = if k = k' then some x else lookup k' es
  | [] => by simp [put, lookup]
  | e :: es => by
    by_cases hlt : e.1 < k
    · rw [put, if_pos hlt, lookup, lookup_put k k' x es, lookup]
      by_cases hk : e.1 = k'
      · have hne : ¬ k = k' := fun h => UInt32.lt_irrefl k (by rw [← hk] at h; rw [← h] at hlt; exact hlt)
        rw [if_pos hk, if_pos hk, if_neg hne]
      · rw [if_neg hk, if_neg hk]
    · by_cases heq : e.1 = k
      · subst heq
        rw [put, if_neg hlt, if_pos rfl, lookup, lookup]
        by_cases hk : e.1 = k'
        · rw [if_pos hk, if_pos hk]
        · rw [if_neg hk, if_neg hk, if_neg hk]
      · rw [put, if_neg hlt, if_neg heq, lookup]

theorem get?_insert (m : SortedMap α) (k k' : UInt32) (x : α) :
    (m.insert k x).get? k' = if k = k' then some x else m.get? k' := lookup_put k k' x m.entries

theorem lookup_filter (p : UInt32 → Bool) (k : UInt32) : ∀ es : List (UInt32 × α),
    lookup k (es.filter fun e => p e.1) = if p k then lookup k es else none
  | [] => by simp [lookup]
  | e :: es => by
    have ih := lookup_filter p k es
    by_cases hk : e.1 = k
    · subst hk
      by_cases hp : p e.1 = true
      · simp [lookup, hp]
      · simp only [hp] at ih
        simp [hp, ih]
    · by_cases hp : p e.1 = true
      · simp [lookup, hp, hk, ih]
      · simp [lookup, hp, hk, ih]

theorem get?_filterKeys (m : SortedMap α) (p : UInt32 → Bool) (k : UInt32) :
    (m.filterKeys p).get? k = if p k then m.get? k else none := lookup_filter p k m.entries

theorem get?_erase (m : SortedMap α) (k k' : UInt32) :
    (m.erase k).get? k' = if k = k' then none else m.get? k' := by
  rw [erase, get?_filterKeys]
  by_cases h : k = k'
  · simp [h]
  · have h' : ¬ k' = k := fun e => h e.symm
    simp [h, h']

theorem get?_above (m : SortedMap α) (k k' : UInt32) :
    (m.above k).get? k' = if k < k' then m.get? k' else none := by
  rw [above, get?_filterKeys]
  by_cases h : k < k' <;> simp [h]

theorem lookup_eq_some_iff {k : UInt32} {x : α} : ∀ {es : List (UInt32 × α)},
    es.Pairwise (fun a b => a.1 < b.1) → (lookup k es = some x ↔ (k, x) ∈ es)
  | [], _ => by simp [lookup]
  | e :: es, h => by
    have hes := List.pairwise_cons.mp h
    have ih := @lookup_eq_some_iff k x es hes.2
    by_cases he : e.1 = k
    · subst he
      have hnot : (e.1, x) ∉ es := fun hm => UInt32.lt_irrefl e.1 (hes.1 (e.1, x) hm)
      simp only [lookup, ite_true, Option.some.injEq, List.mem_cons, hnot, or_false]
      exact ⟨fun hx => by rw [← hx], fun hx => by rw [← hx]⟩
    · have hne : ¬ (k, x) = e := fun hx => he (by rw [← hx])
      simp only [lookup, he, ite_false, List.mem_cons, hne, false_or]
      exact ih

theorem get?_eq_some_iff {m : SortedMap α} {k : UInt32} {x : α} : m.get? k = some x ↔ (k, x) ∈ m.entries :=
  lookup_eq_some_iff m.sorted

theorem ext_get? {m n : SortedMap α} (h : ∀ k, m.get? k = n.get? k) : m = n := by
  obtain ⟨es, hes⟩ := m
  obtain ⟨fs, hfs⟩ := n
  suffices heq : es = fs by
    subst heq
    rfl
  have hmem : ∀ e, e ∈ es ↔ e ∈ fs := fun e => by
    have he := h e.1
    rw [← lookup_eq_some_iff hes, ← lookup_eq_some_iff hfs]
    simp only [get?] at he
    rw [he]
  clear h
  induction es generalizing fs with
  | nil =>
    cases fs with
    | nil => rfl
    | cons f fs => exact absurd ((hmem f).mpr (List.mem_cons_self ..)) (List.not_mem_nil)
  | cons e es ih =>
    cases fs with
    | nil => exact absurd ((hmem e).mp (List.mem_cons_self ..)) (List.not_mem_nil)
    | cons f fs =>
      have hse := List.pairwise_cons.mp hes
      have hsf := List.pairwise_cons.mp hfs
      have hef : e = f := by
        rcases List.mem_cons.mp ((hmem e).mp (List.mem_cons_self ..)) with h | h
        · exact h
        · rcases List.mem_cons.mp ((hmem f).mpr (List.mem_cons_self ..)) with h' | h'
          · exact h'.symm
          · exact absurd (UInt32.lt_trans (hse.1 f h') (hsf.1 e h)) (UInt32.lt_irrefl _)
      subst hef
      congr 1
      refine ih hse.2 fs hsf.2 fun x => ⟨fun hx => ?_, fun hx => ?_⟩
      · rcases List.mem_cons.mp ((hmem x).mp (List.mem_cons_of_mem _ hx)) with h | h
        · exact absurd (h ▸ hse.1 x hx) (UInt32.lt_irrefl _)
        · exact h
      · rcases List.mem_cons.mp ((hmem x).mpr (List.mem_cons_of_mem _ hx)) with h | h
        · exact absurd (h ▸ hsf.1 x hx) (UInt32.lt_irrefl _)
        · exact h

end SortedMap
end StateSync
