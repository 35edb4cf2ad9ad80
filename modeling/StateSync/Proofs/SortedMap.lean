import Mathlib.Data.List.Perm.Subperm
import StateSync.SortedMap

/-! Values, keys and sizes of sorted maps, and which entries are among the greatest. -/

namespace StateSync.SortedMap
variable {α : Type} {m m' : SortedMap α} {k l : UInt32} {n : Nat} {x : α}

theorem mem_values : x ∈ m.values ↔ ∃ k, m.get? k = some x := by
  simp only [values, List.mem_map]
  constructor
  · rintro ⟨e, he, rfl⟩
    exact ⟨e.1, get?_eq_some_iff.mpr he⟩
  · rintro ⟨k, hk⟩
    exact ⟨(k, x), get?_eq_some_iff.mp hk, rfl⟩

theorem get?_of_greatest {n : Nat} (h : (m.greatest n).get? k = some x) : m.get? k = some x :=
  get?_eq_some_iff.mpr (List.mem_of_mem_drop (get?_eq_some_iff.mp h))

theorem size_greatest_le (m : SortedMap α) (n : Nat) : (m.greatest n).size ≤ n := by
  simp only [greatest, size, List.length_drop]
  omega

theorem size_filterKeys_le (m : SortedMap α) (p : UInt32 → Bool) : (m.filterKeys p).size ≤ m.size :=
  List.length_filter_le _ _

theorem length_put_le (k : UInt32) (x : α) (es : List (UInt32 × α)) : (put k x es).length ≤ es.length + 1 := by
  induction es with
  | nil => exact Nat.le_refl 1
  | cons e es ih =>
    rw [put]
    split
    · exact Nat.succ_le_succ ih
    · split
      · exact Nat.le_succ _
      · exact Nat.le_refl _

theorem size_insert_le (m : SortedMap α) (k : UInt32) (x : α) : (m.insert k x).size ≤ m.size + 1 :=
  length_put_le k x m.entries

theorem greatest_of_size_le (h : m.size ≤ n) : m.greatest n = m := by
  simp only [greatest, Nat.sub_eq_zero_of_le h, List.drop_zero]

/-! ### Keys -/

theorem mem_keys : k ∈ m.keys ↔ ∃ x, m.get? k = some x := by
  simp only [keys, List.mem_map]
  constructor
  · rintro ⟨e, he, rfl⟩
    exact ⟨e.2, get?_eq_some_iff.mpr he⟩
  · rintro ⟨x, hx⟩
    exact ⟨(k, x), get?_eq_some_iff.mp hx, rfl⟩

theorem mem_keys_above : l ∈ (m.above k).keys ↔ k < l ∧ l ∈ m.keys := by
  rw [mem_keys, mem_keys, get?_above]
  by_cases h : k < l <;> simp [h]

theorem nodup_keys (m : SortedMap α) : m.keys.Nodup := by
  rw [keys, List.nodup_iff_pairwise_ne, List.pairwise_map]
  exact m.sorted.imp UInt32.ne_of_lt

theorem length_keys (m : SortedMap α) : m.keys.length = m.size := List.length_map _

theorem size_le_of_keys (h : ∀ l ∈ m.keys, l ∈ m'.keys) : m.size ≤ m'.size := by
  rw [← m.length_keys, ← m'.length_keys]
  exact m.nodup_keys.length_le_of_subset h

/-! ### The greatest keys -/

/-- How many keys are greater than `k`. -/
def rank (m : SortedMap α) (k : UInt32) : Nat := (m.above k).size

theorem rank_le_of_keys (h : ∀ l ∈ m.keys, k < l → l ∈ m'.keys) : m.rank k ≤ m'.rank k := by
  refine size_le_of_keys fun l hl => ?_
  obtain ⟨hlt, hl⟩ := mem_keys_above.mp hl
  exact mem_keys_above.mpr ⟨hlt, h l hl hlt⟩

theorem rank_anti (m : SortedMap α) (h : k ≤ l) : m.rank l ≤ m.rank k := by
  refine size_le_of_keys fun j hj => ?_
  obtain ⟨hlt, hj⟩ := mem_keys_above.mp hj
  exact mem_keys_above.mpr ⟨UInt32.lt_of_le_of_lt h hlt, hj⟩

theorem sorted_split {before after : List (UInt32 × α)} (h : m.entries = before ++ (k, x) :: after) :
    (∀ e ∈ before, e.1 < k) ∧ ∀ e ∈ after, k < e.1 := by
  have hsorted := m.sorted
  rw [h] at hsorted
  obtain ⟨-, hafter, hbefore⟩ := List.pairwise_append.mp hsorted
  exact ⟨fun e he => hbefore e he (k, x) List.mem_cons_self, (List.pairwise_cons.mp hafter).1⟩

/-- The keys behind an entry are the greater ones. -/
theorem rank_eq_length {before after : List (UInt32 × α)} (h : m.entries = before ++ (k, x) :: after) :
    m.rank k = after.length := by
  obtain ⟨hbefore, hafter⟩ := sorted_split h
  have hentries : (m.above k).entries = m.entries.filter fun e => decide (k < e.1) := rfl
  have hdrop : before.filter (fun e => decide (k < e.1)) = [] :=
    List.filter_eq_nil_iff.mpr fun e he => by simpa using UInt32.le_of_lt (hbefore e he)
  have hkeep : after.filter (fun e => decide (k < e.1)) = after :=
    List.filter_eq_self.mpr fun e he => decide_eq_true (hafter e he)
  rw [rank, size, hentries, h, List.filter_append, hdrop, List.nil_append, List.filter_cons_of_neg (by simp), hkeep]

theorem get?_greatest_eq_some_iff : (m.greatest n).get? k = some x ↔ m.get? k = some x ∧ m.rank k < n := by
  have hentries : (m.greatest n).entries = m.entries.drop (m.size - n) := rfl
  refine ⟨fun h => ⟨get?_of_greatest h, ?_⟩, fun ⟨h, hrank⟩ => get?_eq_some_iff.mpr ?_⟩
  · obtain ⟨before, after, hsplit⟩ := List.append_of_mem (get?_eq_some_iff.mp (get?_of_greatest h))
    rw [rank_eq_length hsplit]
    by_contra hlong
    -- The entry would be dropped, and it does not stand behind itself.
    obtain ⟨i, hi⟩ : ∃ i, m.size - n = before.length + (i + 1) := by
      refine ⟨after.length - n, ?_⟩
      rw [size, hsplit, List.length_append, List.length_cons]
      omega
    have hmem := get?_eq_some_iff.mp h
    rw [hentries, hi, hsplit, List.drop_length_add_append, List.drop_succ_cons] at hmem
    exact UInt32.lt_irrefl k ((sorted_split hsplit).2 _ (List.mem_of_mem_drop hmem))
  · obtain ⟨before, after, hsplit⟩ := List.append_of_mem (get?_eq_some_iff.mp h)
    rw [rank_eq_length hsplit] at hrank
    have hle : m.size - n ≤ before.length := by
      rw [size, hsplit, List.length_append, List.length_cons]
      omega
    rw [hentries, hsplit, List.drop_append_of_le_length hle]
    exact List.mem_append_right _ List.mem_cons_self

theorem get?_greatest (m : SortedMap α) (n : Nat) (k : UInt32) :
    (m.greatest n).get? k = if m.rank k < n then m.get? k else none := by
  refine Option.ext fun x => ?_
  rw [get?_greatest_eq_some_iff]
  by_cases h : m.rank k < n <;> simp [h]

theorem mem_keys_greatest : k ∈ (m.greatest n).keys ↔ k ∈ m.keys ∧ m.rank k < n := by
  rw [mem_keys, mem_keys, get?_greatest]
  by_cases h : m.rank k < n <;> simp [h]

theorem rank_greatest_lt_iff : (m.greatest n).rank k < n ↔ m.rank k < n := by
  constructor
  · intro h
    by_contra hge
    have hall : ∀ l ∈ (m.greatest n).keys, l ∈ ((m.greatest n).above k).keys := by
      intro l hl
      refine mem_keys_above.mpr ⟨UInt32.not_le.mp fun hle => ?_, hl⟩
      exact hge (Nat.lt_of_le_of_lt (m.rank_anti hle) (mem_keys_greatest.mp hl).2)
    have hsize : m.rank k ≤ m.size := m.size_filterKeys_le _
    have hfull : (m.greatest n).size = n := by
      simp only [greatest, size, List.length_drop] at hsize ⊢
      omega
    have hrank : (m.greatest n).size ≤ (m.greatest n).rank k := size_le_of_keys hall
    omega
  · intro h
    exact Nat.lt_of_le_of_lt (rank_le_of_keys fun l hl _ => (mem_keys_greatest.mp hl).1) h

end StateSync.SortedMap
