import Mathlib.Data.List.Nodup
import StateSync.StringTable

/-! Name tables: the invariant of every table that names are added to (`Sound`), and that the lines of such a table
    are taken over as they are (`Sound.replace_entries`). -/

namespace StateSync.StringTable
variable {t t' : StringTable} {name : String} {id : UInt8}

/-- The names are distinct, a byte tells them apart, and the first is that of the table message. -/
structure Sound (t : StringTable) : Prop where
  nodup : t.names.Nodup
  bounded : t.names.length ≤ capacity
  head : t.names.head? = some bootstrapName

theorem sound_create : create.Sound := ⟨List.nodup_singleton _, by decide, rfl⟩

theorem Sound.lock (h : t.Sound) : t.lock.Sound := ⟨h.nodup, h.bounded, h.head⟩

theorem lock_of_locked (h : t.locked = true) : t.lock = t := by rw [lock, ← h]

theorem find?_eq_none_iff : t.find? name = none ↔ name ∉ t.names := by
  rw [find?, Option.map_eq_none_iff, List.idxOf?_eq_none_iff]

theorem add_of_not_mem (h : name ∉ t.names) : t.add name =
    if t.locked then .error (.tableLocked name)
    else if capacity ≤ t.size then .error (.tableFull name)
    else .ok (UInt8.ofNat t.size, { t with names := t.names ++ [name] }) := by
  rw [add, find?_eq_none_iff.mpr h]

/-- A table that takes a name has it, or is not locked and gets it behind the others. -/
theorem add_cases (h : t.add name = .ok (id, t')) :
    t' = t ∨ (name ∉ t.names ∧ t.locked = false ∧ t.size < capacity ∧ t' = { t with names := t.names ++ [name] }) := by
  unfold add at h
  split at h
  · obtain ⟨-, rfl⟩ := Prod.mk.inj (Except.ok.inj h)
    exact Or.inl rfl
  · rename_i hnone
    split at h
    · cases h
    · rename_i hlocked
      split at h
      · cases h
      · rename_i hfull
        obtain ⟨-, rfl⟩ := Prod.mk.inj (Except.ok.inj h)
        exact Or.inr ⟨find?_eq_none_iff.mp hnone, eq_false_of_ne_true hlocked, Nat.not_le.mp hfull, rfl⟩

theorem Sound.add (h : t.Sound) (ha : t.add name = .ok (id, t')) : t'.Sound := by
  rcases add_cases ha with rfl | ⟨hnew, -, hsize, rfl⟩
  · exact h
  · refine ⟨?_, ?_, ?_⟩
    · exact List.nodup_append.mpr ⟨h.nodup, List.nodup_singleton _, fun a ha b hb => by
        rintro rfl
        exact hnew (List.mem_singleton.mp hb ▸ ha)⟩
    · rw [List.length_append]
      exact hsize
    · rw [List.head?_append, h.head]
      rfl

theorem add_of_locked (hl : t.locked = true) (ha : t.add name = .ok (id, t')) : t' = t := by
  rcases add_cases ha with rfl | ⟨-, hopen, -, -⟩
  · rfl
  · rw [hl] at hopen
    cases hopen

theorem Sound.find?_ne_bootstrapId (h : t.Sound) (hne : name ≠ bootstrapName) (hf : t.find? name = some id) :
    id ≠ bootstrapId := by
  obtain ⟨i, hi, rfl⟩ := Option.map_eq_some_iff.mp hf
  obtain ⟨hlt, hname, -⟩ := List.idxOf?_eq_some_iff.mp hi
  intro hzero
  have hbound := h.bounded
  have hval : (UInt8.ofNat i).toNat = 0 := by rw [hzero]; rfl
  have hi0 : i = 0 := by
    rw [UInt8.toNat_ofNat'] at hval
    unfold capacity at hbound
    omega
  subst hi0
  have hhead := h.head
  rw [List.head?_eq_getElem?, List.getElem?_eq_getElem hlt, hname] at hhead
  exact hne (Option.some.inj hhead)

/-- A name that is found has the place it was found at. -/
theorem Sound.get?_of_find? (h : t.Sound) (hf : t.find? name = some id) : t.get? id = some name := by
  obtain ⟨i, hi, rfl⟩ := Option.map_eq_some_iff.mp hf
  obtain ⟨hlt, hname, -⟩ := List.idxOf?_eq_some_iff.mp hi
  have hbound := h.bounded
  unfold capacity at hbound
  rw [get?, UInt8.toNat_ofNat', Nat.mod_eq_of_lt (by omega), List.getElem?_eq_getElem hlt, hname]

theorem exists_find? (hmem : name ∈ t.names) : ∃ id, t.find? name = some id :=
  Option.ne_none_iff_exists'.mp fun hnone => find?_eq_none_iff.mp hnone hmem

/-- Names keep their places when others come behind them. -/
theorem find?_of_prefix (h : t.names <+: t'.names) (hf : t.find? name = some id) : t'.find? name = some id := by
  obtain ⟨rest, hrest⟩ := h
  obtain ⟨i, hi, rfl⟩ := Option.map_eq_some_iff.mp hf
  rw [List.idxOf?] at hi
  rw [find?, ← hrest, List.idxOf?, List.findIdx?_append, hi]
  rfl

/-- The byte that carries the table stands for the table. -/
theorem Sound.find?_bootstrap (h : t.Sound) : t.find? bootstrapName = some bootstrapId := by
  obtain ⟨names, hnames⟩ : ∃ names, t.names = bootstrapName :: names := List.head?_eq_some_iff.mp h.head
  rw [find?, hnames, List.idxOf?_cons]
  rfl

/-- A table that was not replaced yet knows no other name. -/
theorem find?_create (hne : name ≠ bootstrapName) : create.find? name = none :=
  find?_eq_none_iff.mpr fun h => hne (List.mem_singleton.mp h)

/-! ### Replacement -/

theorem pairwise_entriesFrom {i : Nat} {names : List String} (hlen : i + names.length ≤ capacity) :
    (entriesFrom i names).Pairwise (fun a b => a.id ≤ b.id) ∧ ∀ e ∈ entriesFrom i names, i ≤ e.id.toNat := by
  induction names generalizing i with
  | nil => exact ⟨.nil, nofun⟩
  | cons name names ih =>
    rw [List.length_cons] at hlen
    obtain ⟨hpair, hge⟩ := ih (i := i + 1) (by omega)
    have hi : (UInt8.ofNat i).toNat = i := by
      rw [UInt8.toNat_ofNat', Nat.mod_eq_of_lt (by unfold capacity at hlen; omega)]
    refine ⟨.cons (fun e he => ?_) hpair, fun e he => ?_⟩
    · rw [UInt8.le_iff_toNat_le, hi]
      exact Nat.le_of_succ_le (hge e he)
    · rcases List.mem_cons.mp he with rfl | he
      · exact Nat.le_of_eq hi.symm
      · exact Nat.le_of_succ_le (hge e he)

theorem collect_entriesFrom {seen names : List String} (hnodup : (seen ++ names).Nodup)
    (hlen : (seen ++ names).length ≤ capacity) :
    collect seen (entriesFrom seen.length names) = .ok (seen ++ names) := by
  induction names generalizing seen with
  | nil => rw [entriesFrom, collect, List.append_nil]
  | cons name names ih =>
    rw [List.append_cons] at hnodup hlen ⊢
    have hi : (UInt8.ofNat seen.length).toNat = seen.length := by
      simp only [List.length_append, List.length_singleton, capacity] at hlen
      rw [UInt8.toNat_ofNat', Nat.mod_eq_of_lt (by omega)]
    have hnew : name ∉ seen := by
      have hleft := (List.nodup_append.mp hnodup).1
      exact fun hmem => (List.nodup_append.mp hleft).2.2 name hmem name (List.mem_singleton_self _) rfl
    rw [entriesFrom, collect]
    simp only [hi]
    rw [if_neg (fun h => h rfl), if_neg hnew]
    have hrest := ih hnodup hlen
    rw [List.length_append, List.length_singleton] at hrest
    exact hrest

theorem Sound.namesOf_entries (h : t.Sound) : namesOf t.entries = .ok t.names := by
  have hsorted : t.entries.mergeSort (fun a b => a.id ≤ b.id) = t.entries := by
    refine List.mergeSort_of_pairwise ?_
    have hpair := (pairwise_entriesFrom (i := 0) (by rw [Nat.zero_add]; exact h.bounded)).1
    exact hpair.imp fun hle => decide_eq_true hle
  have hcollect := @collect_entriesFrom [] t.names h.nodup h.bounded
  unfold namesOf
  rw [hsorted, show collect [] t.entries = .ok t.names from hcollect]
  simp only
  rw [if_pos h.head]

/-- The lines of a table are taken over, whatever the table was before. -/
theorem Sound.replace_entries (h : t.Sound) (own : StringTable) :
    own.replace t.entries = .ok { own with names := t.names, locked := true } := by
  unfold replace
  rw [h.namesOf_entries]

end StateSync.StringTable
