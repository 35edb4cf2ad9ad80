import Mathlib.Data.List.Nodup
import StateSync.Proofs.StringTable

/-! Which lines a table is replaced by (`replace_eq_ok_iff`), and what is found in it afterwards (`get?_replace`,
    `find?_replace`). The lines are sorted by their places and then checked one by one. What passes the check counts up
    from zero, so the order in which the lines came does not matter. -/

namespace StateSync.StringTable
variable {t t' : StringTable} {name : String} {id : UInt8} {es es' : List TableEntry} {seen names : List String}

/-! ### Look-ups -/

/-- The two look-ups are inverse to each other. -/
theorem Sound.get?_eq_some_iff (h : t.Sound) : t.get? id = some name ↔ t.find? name = some id := by
  refine ⟨fun hget => ?_, h.get?_of_find?⟩
  obtain ⟨hlt, hname⟩ := List.getElem?_eq_some_iff.mp hget
  have hidx : t.names.idxOf? name = some id.toNat := by
    refine List.idxOf?_eq_some_iff.mpr ⟨hlt, hname, fun j hj hjname => ?_⟩
    have hji : j = id.toNat := (h.nodup.getElem_inj_iff).mp (hjname.trans hname.symm)
    exact absurd hji (Nat.ne_of_lt hj)
  rw [find?, hidx, Option.map_some, UInt8.ofNat_toNat]

/-- The places in use are those below the number of names. -/
theorem exists_get?_iff : (∃ name, t.get? id = some name) ↔ id.toNat < t.size := by
  rw [get?, size]
  simp only [List.getElem?_eq_some_iff]
  constructor
  · rintro ⟨_, hlt, -⟩
    exact hlt
  · intro hlt
    exact ⟨_, hlt, rfl⟩

theorem Sound.get?_bootstrap (h : t.Sound) : t.get? bootstrapId = some bootstrapName :=
  h.get?_of_find? h.find?_bootstrap

theorem Sound.size_pos (h : t.Sound) : 1 ≤ t.size := exists_get?_iff.mp ⟨_, h.get?_bootstrap⟩

/-! ### The check of sorted lines -/

/-- Lines that make up a table: they take the places from zero on, each once, repeat no name, and give the first place
    to the message that carries the table. -/
structure IsTable (es : List TableEntry) : Prop where
  places : ∃ k, 1 ≤ k ∧ (es.map (·.id.toNat)).Perm (List.range k)
  names : (es.map (·.name)).Nodup
  bootstrap : ⟨bootstrapId, bootstrapName⟩ ∈ es

/-- The order of the lines does not matter. -/
theorem IsTable.perm (h : IsTable es) (hp : es.Perm es') : IsTable es' where
  places := by
    obtain ⟨k, hk, hplaces⟩ := h.places
    exact ⟨k, hk, ((hp.map _).symm).trans hplaces⟩
  names := (hp.map _).nodup_iff.mp h.names
  bootstrap := hp.mem_iff.mp h.bootstrap

/-- Lines pass the check one by one if they go on counting, and if they repeat no name. -/
theorem collect_eq_ok_iff (hseen : seen.Nodup) : collect seen es = .ok names ↔
    names = seen ++ es.map (·.name) ∧ es.map (·.id.toNat) = List.range' seen.length es.length ∧ names.Nodup := by
  induction es generalizing seen with
  | nil =>
    simp only [collect, Except.ok.injEq, List.map_nil, List.append_nil, List.length_nil, List.range'_zero, true_and]
    exact ⟨fun h => ⟨h.symm, h ▸ hseen⟩, fun h => h.1.symm⟩
  | cons e es ih =>
    rw [collect, List.map_cons, List.map_cons, List.append_cons seen e.name (es.map _), List.length_cons,
      List.range'_succ, List.cons.injEq]
    by_cases hid : e.id.toNat = seen.length
    · by_cases hmem : e.name ∈ seen
      · rw [if_neg (not_not_intro hid), if_pos hmem]
        refine ⟨(by intro h; cases h), ?_⟩
        rintro ⟨hnames, -, hnodup⟩
        have hleft := (List.nodup_append.mp (hnames ▸ hnodup)).1
        exact absurd rfl ((List.nodup_append.mp hleft).2.2 _ hmem _ (List.mem_singleton_self _))
      · have hseen' : (seen ++ [e.name]).Nodup := by
          rw [← List.concat_eq_append]
          exact hseen.concat hmem
        rw [if_neg (not_not_intro hid), if_neg hmem, ih hseen', List.length_append, List.length_singleton]
        exact and_congr_right fun _ => and_congr_left fun _ => (and_iff_right hid).symm
    · rw [if_pos hid]
      exact ⟨(by intro h; cases h), fun h => absurd h.2.1.1 hid⟩

/-- The lines by their places. -/
def inOrder (es : List TableEntry) : List TableEntry := es.mergeSort fun a b => a.id ≤ b.id

theorem inOrder_perm (es : List TableEntry) : (inOrder es).Perm es := List.mergeSort_perm es _

theorem inOrder_pairwise (es : List TableEntry) : ((inOrder es).map (·.id.toNat)).Pairwise (· ≤ ·) := by
  have hsorted : (inOrder es).Pairwise fun a b => decide (a.id ≤ b.id) = true := by
    refine List.pairwise_mergeSort ?_ ?_ es
    · intro a b c hab hbc
      exact decide_eq_true (UInt8.le_trans (of_decide_eq_true hab) (of_decide_eq_true hbc))
    · intro a b
      rw [Bool.or_eq_true, decide_eq_true_iff, decide_eq_true_iff]
      exact UInt8.le_total a.id b.id
  exact List.pairwise_map.mpr (hsorted.imp fun h => UInt8.le_iff_toNat_le.mp (of_decide_eq_true h))

/-- In order, the places of a table are the numbers from zero on. -/
theorem IsTable.map_inOrder (h : IsTable es) :
    (inOrder es).map (·.id.toNat) = List.range (inOrder es).length := by
  obtain ⟨k, -, hplaces⟩ := h.places
  have hperm : ((inOrder es).map (·.id.toNat)).Perm (List.range k) := ((inOrder_perm es).map _).trans hplaces
  have hlen : (inOrder es).length = k := by
    have hcount := hperm.length_eq
    rwa [List.length_map, List.length_range] at hcount
  rw [hlen]
  exact hperm.eq_of_pairwise (fun _ _ _ _ => Nat.le_antisymm) (inOrder_pairwise es) List.pairwise_le_range

theorem IsTable.place_inOrder (h : IsTable es) {i : Nat} (hi : i < (inOrder es).length) :
    (inOrder es)[i].id.toNat = i := by
  have hmap : ((inOrder es).map (·.id.toNat))[i]? = some i := by
    rw [h.map_inOrder, List.getElem?_range hi]
  rw [List.getElem?_map, List.getElem?_eq_getElem hi] at hmap
  exact Option.some.inj hmap

/-- The line at the first place of a table is that of the table message. -/
theorem IsTable.head? (h : IsTable es) : ((inOrder es).map (·.name)).head? = some bootstrapName := by
  have hmem : ⟨bootstrapId, bootstrapName⟩ ∈ inOrder es := (inOrder_perm es).mem_iff.mpr h.bootstrap
  obtain ⟨i, hi, hget⟩ := List.getElem_of_mem hmem
  obtain rfl : 0 = i := by
    rw [← h.place_inOrder hi, hget]
    rfl
  rw [List.head?_eq_getElem?, List.getElem?_map, List.getElem?_eq_getElem hi, hget]
  rfl

theorem isTable_of_inOrder (hplaces : (inOrder es).map (·.id.toNat) = List.range (inOrder es).length)
    (hnames : ((inOrder es).map (·.name)).Nodup)
    (hhead : ((inOrder es).map (·.name)).head? = some bootstrapName) : IsTable es := by
  refine IsTable.perm ?_ (inOrder_perm es)
  generalize inOrder es = sorted at hplaces hnames hhead
  obtain ⟨rest, hrest⟩ := List.head?_eq_some_iff.mp hhead
  cases sorted with
  | nil => cases hrest
  | cons e sorted =>
    refine ⟨⟨_, Nat.succ_pos _, .of_eq hplaces⟩, hnames, ?_⟩
    rw [List.length_cons, List.range_succ_eq_map, List.map_cons, List.cons.injEq] at hplaces
    have hid : e.id = bootstrapId := UInt8.toNat_inj.mp hplaces.1
    have hname : e.name = bootstrapName := (List.cons.inj hrest).1
    exact List.mem_cons.mpr (Or.inl (by rw [← hid, ← hname]))

/-- The lines that make up a table pass the check, and no others do. -/
theorem namesOf_eq_ok_iff :
    namesOf es = .ok names ↔ IsTable es ∧ names = (inOrder es).map (·.name) := by
  have hcollect := @collect_eq_ok_iff (inOrder es) [] names List.nodup_nil
  rw [List.nil_append, List.length_nil, ← List.range_eq_range'] at hcollect
  constructor
  · intro h
    unfold namesOf at h
    split at h
    · cases h
    · rename_i collected hcollected
      split at h
      · rename_i hhead
        cases Except.ok.inj h
        obtain ⟨rfl, hplaces, hnodup⟩ := hcollect.mp hcollected
        exact ⟨isTable_of_inOrder hplaces hnodup hhead, rfl⟩
      · cases h
  · rintro ⟨h, rfl⟩
    have hnodup : ((inOrder es).map (·.name)).Nodup := ((inOrder_perm es).map _).nodup_iff.mpr h.names
    have hcollected := hcollect.mpr ⟨rfl, h.map_inOrder, hnodup⟩
    unfold namesOf
    rw [show collect [] (es.mergeSort fun a b => a.id ≤ b.id) = _ from hcollected]
    simp only
    rw [if_pos h.head?]

/-! ### Replacement -/

theorem replace_eq_ok_iff : t.replace es = .ok t' ↔
    IsTable es ∧ t' = { t with names := (inOrder es).map (·.name), locked := true } := by
  unfold replace
  cases hn : namesOf es with
  | error e =>
    refine ⟨(by intro h; cases h), ?_⟩
    rintro ⟨htable, -⟩
    cases hn.symm.trans (namesOf_eq_ok_iff.mpr ⟨htable, rfl⟩)
  | ok names =>
    obtain ⟨htable, rfl⟩ := namesOf_eq_ok_iff.mp hn
    simp only [Except.ok.injEq, htable, true_and]
    exact eq_comm

theorem exists_replace_iff (t : StringTable) : (∃ t', t.replace es = .ok t') ↔ IsTable es :=
  ⟨fun ⟨_, h⟩ => (replace_eq_ok_iff.mp h).1, fun h => ⟨_, replace_eq_ok_iff.mpr ⟨h, rfl⟩⟩⟩

/-- There are no more lines in a table than places, as no place comes twice. -/
theorem IsTable.length_inOrder_le (h : IsTable es) : (inOrder es).length ≤ capacity := by
  refine Nat.not_lt.mp fun hlong => ?_
  have hmem : capacity ∈ (inOrder es).map (·.id.toNat) := h.map_inOrder ▸ List.mem_range.mpr hlong
  obtain ⟨e, -, he⟩ := List.mem_map.mp hmem
  exact absurd (UInt8.toNat_lt e.id) (by rw [he]; decide)

theorem sound_of_replace (h : t.replace es = .ok t') : t'.Sound := by
  obtain ⟨htable, rfl⟩ := replace_eq_ok_iff.mp h
  refine ⟨((inOrder_perm es).map _).nodup_iff.mpr htable.names, ?_, htable.head?⟩
  show ((inOrder es).map _).length ≤ capacity
  rw [List.length_map]
  exact htable.length_inOrder_le

theorem locked_of_replace (h : t.replace es = .ok t') : t'.locked = true := by
  obtain ⟨-, rfl⟩ := replace_eq_ok_iff.mp h
  rfl

/-- What is found in a table that was taken over are its lines. -/
theorem get?_replace (h : t.replace es = .ok t') : t'.get? id = some name ↔ ⟨id, name⟩ ∈ es := by
  obtain ⟨htable, rfl⟩ := replace_eq_ok_iff.mp h
  rw [← (inOrder_perm es).mem_iff]
  show ((inOrder es).map (·.name))[id.toNat]? = some name ↔ _
  rw [List.getElem?_map, Option.map_eq_some_iff]
  constructor
  · rintro ⟨e, he, rfl⟩
    obtain ⟨hi, rfl⟩ := List.getElem?_eq_some_iff.mp he
    have hid : (inOrder es)[id.toNat].id = id := UInt8.toNat_inj.mp (htable.place_inOrder hi)
    nth_rewrite 1 [← hid]
    exact List.getElem_mem hi
  · intro hmem
    obtain ⟨i, hi, hget⟩ := List.getElem_of_mem hmem
    have hid : id.toNat = i := by rw [← htable.place_inOrder hi, hget]
    exact ⟨⟨id, name⟩, by rw [hid, List.getElem?_eq_getElem hi, hget], rfl⟩

theorem find?_replace (h : t.replace es = .ok t') : t'.find? name = some id ↔ ⟨id, name⟩ ∈ es := by
  rw [← (sound_of_replace h).get?_eq_some_iff, get?_replace h]

theorem Sound.isTable_entries (h : t.Sound) : IsTable t.entries := (namesOf_eq_ok_iff.mp h.namesOf_entries).1

theorem Sound.mem_entries_iff (h : t.Sound) : ⟨id, name⟩ ∈ t.entries ↔ t.get? id = some name :=
  (get?_replace (h.replace_entries t)).symm

/-- A table is taken over by its lines, in whatever order they come and whatever the table was before. -/
theorem Sound.replace_perm_entries (h : t.Sound) (own : StringTable) (hp : es.Perm t.entries) :
    ∃ t', own.replace es = .ok t' ∧ t'.get? = t.get? ∧ t'.find? = t.find? := by
  obtain ⟨t', ht'⟩ := (exists_replace_iff own).mpr (h.isTable_entries.perm hp.symm)
  have hget : ∀ id name, t'.get? id = some name ↔ t.get? id = some name := fun id name => by
    rw [get?_replace ht', hp.mem_iff, h.mem_entries_iff]
  refine ⟨t', ht', funext fun id => Option.ext (hget id), funext fun name => Option.ext fun id => ?_⟩
  rw [← (sound_of_replace ht').get?_eq_some_iff, ← h.get?_eq_some_iff, hget]

end StateSync.StringTable
