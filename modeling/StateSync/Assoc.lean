/-! Finite maps as lists of entries. A key has at most one entry; a new key goes to the end, so the
    entries stand in the order in which their keys came. Each operation is known by what it does to
    `get?`. -/

namespace StateSync

structure Assoc (κ α : Type) where
  entries : List (κ × α)
  nodup : (entries.map (·.1)).Nodup

namespace Assoc
variable {κ α : Type}

instance [DecidableEq κ] [DecidableEq α] : DecidableEq (Assoc κ α) := fun m n =>
  decidable_of_iff (m.entries = n.entries) ⟨fun h => by cases m; cases n; simp_all, fun h => by rw [h]⟩

def empty : Assoc κ α := ⟨[], List.nodup_nil⟩

instance : Inhabited (Assoc κ α) := ⟨empty⟩

def keys (m : Assoc κ α) : List κ := m.entries.map (·.1)

def values (m : Assoc κ α) : List α := m.entries.map (·.2)

def size (m : Assoc κ α) : Nat := m.entries.length

variable [DecidableEq κ]

/-! ### Entries -/

def lookup (k : κ) : List (κ × α) → Option α
  | [] => none
  | e :: es => if e.1 = k then some e.2 else lookup k es

/-- Replaces the value under `k` in place, or adds an entry at the end. -/
def put (k : κ) (x : α) : List (κ × α) → List (κ × α)
  | [] => [(k, x)]
  | e :: es => if e.1 = k then (k, x) :: es else e :: put k x es

theorem mem_keys_put {k k' : κ} {x : α} : ∀ {es : List (κ × α)},
    k' ∈ (put k x es).map (·.1) → k' = k ∨ k' ∈ es.map (·.1)
  | [], h => by simp_all [put]
  | e :: es, h => by
    by_cases he : e.1 = k
    · simp only [put, he, ite_true, List.map_cons, List.mem_cons] at h ⊢
      rcases h with h | h
      · exact Or.inl h
      · exact Or.inr (Or.inr h)
    · simp only [put, he, ite_false, List.map_cons, List.mem_cons] at h ⊢
      rcases h with h | h
      · exact Or.inr (Or.inl h)
      · rcases mem_keys_put h with h | h
        · exact Or.inl h
        · exact Or.inr (Or.inr h)

theorem nodup_put {k : κ} {x : α} : ∀ {es : List (κ × α)},
    (es.map (·.1)).Nodup → ((put k x es).map (·.1)).Nodup
  | [], _ => by simp [put]
  | e :: es, h => by
    simp only [List.map_cons, List.nodup_cons] at h
    by_cases he : e.1 = k
    · simp only [put, he, ite_true, List.map_cons, List.nodup_cons]
      exact ⟨he ▸ h.1, h.2⟩
    · simp only [put, he, ite_false, List.map_cons, List.nodup_cons]
      refine ⟨fun hm => ?_, nodup_put h.2⟩
      rcases mem_keys_put hm with hk | hk
      · exact he hk
      · exact h.1 hk

/-! ### Operations -/

def get? (m : Assoc κ α) (k : κ) : Option α := lookup k m.entries

def contains (m : Assoc κ α) (k : κ) : Bool := (m.get? k).isSome

def insert (m : Assoc κ α) (k : κ) (x : α) : Assoc κ α := ⟨put k x m.entries, nodup_put m.nodup⟩

def erase (m : Assoc κ α) (k : κ) : Assoc κ α :=
  ⟨m.entries.filter fun e => e.1 ≠ k, m.nodup.sublist (List.filter_sublist.map _)⟩

def modify (m : Assoc κ α) (k : κ) (f : α → α) : Assoc κ α :=
  ⟨m.entries.map fun e => if e.1 = k then (e.1, f e.2) else e, by
    have h : (m.entries.map fun e => if e.1 = k then (e.1, f e.2) else e).map (·.1) = m.entries.map (·.1) := by
      rw [List.map_map]
      apply List.map_congr_left
      intro e _
      by_cases he : e.1 = k <;> simp [he]
    rw [h]
    exact m.nodup⟩

/-! ### What the operations do to `get?` -/

@[simp] theorem get?_empty (k : κ) : (empty : Assoc κ α).get? k = none := rfl

theorem lookup_put (k k' : κ) (x : α) : ∀ es : List (κ × α),
    lookup k' (put k x es) = if k = k' then some x else lookup k' es
  | [] => by simp [put, lookup]
  | e :: es => by
    by_cases he : e.1 = k
    · by_cases hk : k = k' <;> simp [put, lookup, he, hk]
    · by_cases hk : e.1 = k'
      · have hne : k ≠ k' := fun h => he (hk.trans h.symm)
        have hne' : ¬ k' = k := fun h => hne h.symm
        simp [put, lookup, hk, hne, hne']
      · simp [put, lookup, he, hk, lookup_put k k' x es]

theorem get?_insert (m : Assoc κ α) (k k' : κ) (x : α) :
    (m.insert k x).get? k' = if k = k' then some x else m.get? k' := lookup_put k k' x m.entries

theorem lookup_filter (k k' : κ) : ∀ es : List (κ × α),
    lookup k' (es.filter fun e => e.1 ≠ k) = if k = k' then none else lookup k' es
  | [] => by simp [lookup]
  | e :: es => by
    have ih := lookup_filter k k' es
    by_cases he : e.1 = k
    · rw [List.filter_cons_of_neg (by simp [he]), ih]
      by_cases hk : k = k' <;> simp [lookup, he, hk]
    · rw [List.filter_cons_of_pos (by simp [he])]
      by_cases hk : e.1 = k'
      · have hne : ¬ k = k' := fun h => he (hk.trans h.symm)
        simp [lookup, hk, hne]
      · simp only [lookup, hk, ite_false, ih]

theorem get?_erase (m : Assoc κ α) (k k' : κ) :
    (m.erase k).get? k' = if k = k' then none else m.get? k' := lookup_filter k k' m.entries

theorem lookup_map (k k' : κ) (f : α → α) : ∀ es : List (κ × α),
    lookup k' (es.map fun e => if e.1 = k then (e.1, f e.2) else e) =
      if k = k' then (lookup k' es).map f else lookup k' es
  | [] => by simp [lookup]
  | e :: es => by
    have ih := lookup_map k k' f es
    by_cases he : e.1 = k <;> by_cases hk : e.1 = k' <;> by_cases hkk : k = k' <;>
      simp_all [lookup]

theorem get?_modify (m : Assoc κ α) (k k' : κ) (f : α → α) :
    (m.modify k f).get? k' = if k = k' then (m.get? k').map f else m.get? k' := lookup_map k k' f m.entries

theorem lookup_eq_none {k : κ} : ∀ {es : List (κ × α)}, lookup k es = none ↔ k ∉ es.map (·.1)
  | [] => by simp [lookup]
  | e :: es => by
    have ih := @lookup_eq_none k es
    by_cases he : e.1 = k
    · simp [lookup, he]
    · have he' : ¬ k = e.1 := fun h => he h.symm
      simp only [lookup, he, ite_false, List.map_cons, List.mem_cons, he', false_or]
      exact ih

theorem get?_eq_none {m : Assoc κ α} {k : κ} : m.get? k = none ↔ k ∉ m.keys := lookup_eq_none

theorem lookup_eq_some_iff {k : κ} {x : α} : ∀ {es : List (κ × α)}, (es.map (·.1)).Nodup →
    (lookup k es = some x ↔ (k, x) ∈ es)
  | [], _ => by simp [lookup]
  | e :: es, h => by
    simp only [List.map_cons, List.nodup_cons] at h
    have ih := lookup_eq_some_iff (k := k) (x := x) h.2
    by_cases he : e.1 = k
    · subst he
      have hnot : (e.1, x) ∉ es := fun hmem => h.1 (List.mem_map.mpr ⟨_, hmem, rfl⟩)
      simp only [lookup, if_true, List.mem_cons, hnot, or_false, Option.some.injEq, Prod.ext_iff, true_and]
      exact eq_comm
    · have hne : ¬ (k, x) = e := fun h => he (h ▸ rfl)
      simp only [lookup, he, if_false, List.mem_cons, hne, false_or]
      exact ih

theorem mem_values {m : Assoc κ α} {x : α} : x ∈ m.values ↔ ∃ k, m.get? k = some x := by
  simp only [values, List.mem_map, get?, lookup_eq_some_iff m.nodup]
  constructor
  · rintro ⟨e, he, rfl⟩
    exact ⟨e.1, he⟩
  · rintro ⟨k, hk⟩
    exact ⟨(k, x), hk, rfl⟩

end Assoc
end StateSync
