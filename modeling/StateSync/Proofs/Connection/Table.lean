import StateSync.Connection.Table

/-! Connection tables: what each update does to the look-ups, and what an update that concerns a single
    connection leaves as it is (`Touched`). -/

namespace StateSync.ConnectionTable
variable {t t' t'' : ConnectionTable} {id j : ConnectionId} {c : Connection} {i : Nat} {p : Peer}

/-- An id that has been given and whose connection is gone. -/
def IsDead (t : ConnectionTable) (id : ConnectionId) : Prop := id.val < t.slots.length ∧ t.get? id = none

theorem get?_eq_some_iff : t.get? id = some c ↔ t.slots[id.val]? = some (some c) := by
  rw [get?, Option.join_eq_some_iff]

theorem lt_of_get? (h : t.get? id = some c) : id.val < t.slots.length :=
  (List.getElem?_eq_some_iff.mp (get?_eq_some_iff.mp h)).1

theorem mem_live : c ∈ t.live ↔ ∃ id, t.get? id = some c := by
  rw [live, List.mem_filterMap]
  constructor
  · rintro ⟨x, hx, hc⟩
    obtain ⟨n, hn⟩ := List.mem_iff_getElem?.mp hx
    exact ⟨⟨n⟩, get?_eq_some_iff.mpr (hc ▸ hn)⟩
  · rintro ⟨id, hid⟩
    exact ⟨some c, List.mem_iff_getElem?.mpr ⟨id.val, get?_eq_some_iff.mp hid⟩, rfl⟩

/-! ### The updates -/

theorem get?_modify (t : ConnectionTable) (id : ConnectionId) (f : Connection → Connection) (j : ConnectionId) :
    (t.modify id f).get? j = if id = j then (t.get? j).map f else t.get? j := by
  simp only [modify, get?, List.getElem?_modify]
  by_cases hj : id = j
  · subst hj
    cases t.slots[id.val]? with
    | none => simp
    | some c => simp
  · have hv : ¬ id.val = j.val := fun h => hj (by cases id; cases j; simp_all)
    simp [hj, hv]

theorem length_modify (t : ConnectionTable) (id : ConnectionId) (f : Connection → Connection) :
    (t.modify id f).slots.length = t.slots.length := List.length_modify _ _ _

/-- The id that is given next. -/
def nextId (t : ConnectionTable) : ConnectionId := ⟨t.slots.length⟩

theorem get?_insert (t : ConnectionTable) (i : Nat) (p : Peer) (remote : Address) (phase : Phase) (j : ConnectionId) :
    (t.insert i p remote phase).2.get? j =
      if t.nextId = j then some ⟨t.nextId, i, p, remote, phase, none, none⟩ else t.get? j := by
  have hget : (t.insert i p remote phase).2.get? j =
      (t.slots ++ [some ⟨t.nextId, i, p, remote, phase, none, none⟩])[j.val]?.join := rfl
  rw [hget]
  by_cases hj : t.nextId = j
  · subst hj
    rw [if_pos rfl, nextId, List.getElem?_concat_length]
    rfl
  · have hv : t.slots.length ≠ j.val := fun h => hj (by cases j; exact congrArg _ h)
    rw [if_neg hj, get?]
    rcases Nat.lt_or_gt_of_ne hv with hlt | hlt
    · rw [List.getElem?_eq_none (by rw [List.length_append, List.length_singleton]; omega),
        List.getElem?_eq_none (by omega)]
    · rw [List.getElem?_append_left hlt]

theorem get?_nextId (t : ConnectionTable) : t.get? t.nextId = none := by
  cases h : t.get? t.nextId with
  | none => rfl
  | some c => exact absurd (lt_of_get? h) (Nat.lt_irrefl _)

theorem find?_insert (t : ConnectionTable) (i : Nat) (p : Peer) (remote : Address) (phase : Phase) (i' : Nat)
    (p' : Peer) : (t.insert i p remote phase).2.find? i' p' =
      if (i, p) = (i', p') then some t.nextId else t.find? i' p' := Assoc.get?_insert ..

theorem remove_eq_none : t.remove id = none ↔ t.get? id = none := Option.map_eq_none_iff

theorem remove_eq_some {removed : Connection} (h : t.remove id = some (removed, t')) :
    ∃ c, t.get? id = some c ∧ removed = { c with phase := .disconnected } ∧
      t' = ⟨t.slots.set id.val none, t.byPeer.erase (c.transport, c.peer)⟩ := by
  obtain ⟨c, hc, heq⟩ := Option.map_eq_some_iff.mp h
  obtain ⟨hr, ht⟩ := Prod.mk.inj heq
  exact ⟨c, hc, hr.symm, ht.symm⟩

theorem get?_remove {removed : Connection} (h : t.remove id = some (removed, t')) (j : ConnectionId) :
    t'.get? j = if id = j then none else t.get? j := by
  obtain ⟨c, hc, -, rfl⟩ := remove_eq_some h
  have hlt := lt_of_get? hc
  simp only [get?, List.getElem?_set]
  by_cases hj : id = j
  · subst hj
    simp [hlt]
  · have hv : ¬ id.val = j.val := fun h => hj (by cases id; cases j; simp_all)
    simp [hj, hv]

/-! ### What a change of one connection leaves as it is -/

/-- Only the connection `id` may differ, and not in its transport and its peer. If it was dead it stays so. -/
structure Touched (t t' : ConnectionTable) (id : ConnectionId) : Prop where
  get? : ∀ {j}, j ≠ id → t'.get? j = t.get? j
  find? : ∀ {j} i p, j ≠ id → (t'.find? i p = some j ↔ t.find? i p = some j)
  grown : t.slots.length ≤ t'.slots.length
  dead : t.IsDead id → t'.get? id = none
  place : ∀ {c c'}, t.get? id = some c → t'.get? id = some c' → c'.transport = c.transport ∧ c'.peer = c.peer

namespace Touched

theorem refl (t : ConnectionTable) (id : ConnectionId) : Touched t t id where
  get? _ := rfl
  find? _ _ _ := Iff.rfl
  grown := Nat.le_refl _
  dead := And.right
  place hc hc' := by
    obtain rfl := Option.some.inj (hc.symm.trans hc')
    exact ⟨rfl, rfl⟩

theorem trans (h : Touched t t' id) (h' : Touched t' t'' id) : Touched t t'' id where
  get? hj := (h'.get? hj).trans (h.get? hj)
  find? i p hj := (h'.find? i p hj).trans (h.find? i p hj)
  grown := Nat.le_trans h.grown h'.grown
  dead hd := h'.dead ⟨Nat.lt_of_lt_of_le hd.1 h.grown, h.dead hd⟩
  place {c c'} hc hc' := by
    cases hm : t'.get? id with
    | some x =>
      obtain ⟨hi, hp⟩ := h.place hc hm
      obtain ⟨hi', hp'⟩ := h'.place hm hc'
      exact ⟨hi'.trans hi, hp'.trans hp⟩
    | none => exact (nomatch (h'.dead ⟨Nat.lt_of_lt_of_le (lt_of_get? hc) h.grown, hm⟩).symm.trans hc')

theorem modify (t : ConnectionTable) (id : ConnectionId) {f : Connection → Connection}
    (hf : ∀ c, (f c).transport = c.transport ∧ (f c).peer = c.peer) : Touched t (t.modify id f) id where
  get? hj := by rw [get?_modify, if_neg (Ne.symm hj)]
  find? _ _ _ := Iff.rfl
  grown := Nat.le_of_eq (length_modify t id f).symm
  dead hd := by rw [get?_modify, if_pos rfl, hd.2, Option.map_none]
  place hc hc' := by
    rw [get?_modify, if_pos rfl, hc] at hc'
    obtain rfl := Option.some.inj hc'
    exact hf _

/-- A peer that is entered must not have been so before. -/
theorem insert (remote : Address) (phase : Phase) (hnew : t.find? i p = none) :
    Touched t (t.insert i p remote phase).2 t.nextId where
  get? hj := by rw [get?_insert, if_neg (Ne.symm hj)]
  find? i' p' hj := by
    rw [find?_insert]
    by_cases hp : (i, p) = (i', p')
    · obtain ⟨rfl, rfl⟩ := Prod.mk.inj hp
      rw [if_pos rfl, hnew]
      exact ⟨fun h => absurd (Option.some.inj h).symm hj, fun h => (nomatch h)⟩
    · rw [if_neg hp]
  grown := by simp [ConnectionTable.insert]
  dead hd := absurd hd.1 (Nat.lt_irrefl _)
  place hc := (nomatch (get?_nextId t).symm.trans hc)

/-- A peer whose connection is removed must have been entered under it. -/
theorem remove {removed : Connection} (h : t.remove id = some (removed, t'))
    (hown : ∀ c, t.get? id = some c → t.find? c.transport c.peer = some id) : Touched t t' id where
  get? hj := by rw [get?_remove h, if_neg (Ne.symm hj)]
  find? i p hj := by
    obtain ⟨c, hc, -, rfl⟩ := remove_eq_some h
    rw [ConnectionTable.find?, Assoc.get?_erase]
    by_cases hp : (c.transport, c.peer) = (i, p)
    · obtain ⟨rfl, rfl⟩ := Prod.mk.inj hp
      rw [if_pos rfl, hown c hc]
      exact ⟨fun h => (nomatch h), fun h => absurd (Option.some.inj h).symm hj⟩
    · rw [if_neg hp]
      rfl
  grown := by
    obtain ⟨c, -, -, rfl⟩ := remove_eq_some h
    exact Nat.le_of_eq (List.length_set ..).symm
  dead hd := by rw [get?_remove h, if_pos rfl]
  place _ hc' := by
    rw [get?_remove h, if_pos rfl] at hc'
    cases hc'

end Touched

/-! ### What is never undone -/

/-- Ids are only added, and those that are dead stay so. -/
structure Ages (t t' : ConnectionTable) : Prop where
  grown : t.slots.length ≤ t'.slots.length
  dead : ∀ {id}, t.IsDead id → t'.get? id = none

theorem Ages.refl (t : ConnectionTable) : Ages t t := ⟨Nat.le_refl _, And.right⟩

theorem Ages.trans (h : Ages t t') (h' : Ages t' t'') : Ages t t'' :=
  ⟨Nat.le_trans h.grown h'.grown, fun hd => h'.dead ⟨Nat.lt_of_lt_of_le hd.1 h.grown, h.dead hd⟩⟩

theorem Touched.ages (h : Touched t t' id) : Ages t t' where
  grown := h.grown
  dead {j} hd := by
    by_cases hj : j = id
    · subst hj
      exact h.dead hd
    · rw [h.get? hj]
      exact hd.2

end StateSync.ConnectionTable
