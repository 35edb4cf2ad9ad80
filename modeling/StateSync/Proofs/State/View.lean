import Mathlib.Data.List.Nodup
import StateSync.State.Delta

/-! What folding a state does to an entity view, uid by uid. A delta changes exactly the uids at which its two
    states differ (`get?_applyTo_deltaFrom`), whatever the view it is folded into. -/

namespace StateSync
open EntityView

variable {base current s : GameState} {v : EntityView} {es : List Entity} {e : Entity} {uid : UInt32}

namespace EntityView

/-- Entities that are added hide what the view has under their uids. -/
theorem get?_insertAll (es : List Entity) (v : EntityView) (uid : UInt32) :
    (v.insertAll es).get? uid = ((ofEntities es).get? uid).or (v.get? uid) := by
  induction es generalizing v with
  | nil => simp [insertAll, ofEntities]
  | cons e es ih =>
    have hcons : ∀ w : EntityView, w.insertAll (e :: es) = insertAll (w.insert e.uid e) es := fun _ => rfl
    rw [ofEntities, hcons, hcons, ih, ih, SortedMap.get?_insert, SortedMap.get?_insert]
    cases (ofEntities es).get? uid with
    | some x => rfl
    | none => by_cases hu : e.uid = uid <;> simp [hu]

theorem get?_ofEntities_cons (e : Entity) (es : List Entity) (uid : UInt32) :
    (ofEntities (e :: es)).get? uid = ((ofEntities es).get? uid).or (if e.uid = uid then some e else none) := by
  have hcons : ofEntities (e :: es) = insertAll (SortedMap.empty.insert e.uid e) es := rfl
  rw [hcons, get?_insertAll, SortedMap.get?_insert, SortedMap.get?_empty]

theorem get?_eraseAll (uids : List UInt32) (v : EntityView) (uid : UInt32) :
    (v.eraseAll uids).get? uid = if uid ∈ uids then none else v.get? uid := by
  induction uids generalizing v with
  | nil => simp [eraseAll]
  | cons u uids ih =>
    have hcons : v.eraseAll (u :: uids) = eraseAll (v.erase u) uids := rfl
    rw [hcons, ih, SortedMap.get?_erase]
    by_cases hu : u = uid
    · simp [hu]
    · have hne : ¬ uid = u := fun h => hu h.symm
      by_cases hus : uid ∈ uids <;> simp [hu, hne, hus]

theorem mem_of_get?_ofEntities (h : (ofEntities es).get? uid = some e) : e ∈ es ∧ e.uid = uid := by
  induction es with
  | nil => cases h
  | cons x es ih =>
    rw [get?_ofEntities_cons] at h
    cases hes : (ofEntities es).get? uid with
    | some y =>
      rw [hes, Option.some_or] at h
      obtain ⟨hmem, hu⟩ := ih (hes.trans h)
      exact ⟨List.mem_cons_of_mem _ hmem, hu⟩
    | none =>
      rw [hes, Option.none_or] at h
      by_cases hu : x.uid = uid
      · rw [if_pos hu] at h
        obtain rfl := Option.some.inj h
        exact ⟨List.mem_cons_self, hu⟩
      · rw [if_neg hu] at h
        cases h

theorem get?_ofEntities_eq_none : (ofEntities es).get? uid = none ↔ uid ∉ es.map (·.uid) := by
  induction es with
  | nil => simp [ofEntities, insertAll]
  | cons x es ih =>
    rw [get?_ofEntities_cons, Option.or_eq_none_iff, ih, List.map_cons, List.mem_cons]
    by_cases hu : x.uid = uid
    · simp [hu]
    · have hu' : ¬ uid = x.uid := fun h => hu h.symm
      simp [hu, hu']

theorem get?_ofEntities_of_mem (hes : (es.map (·.uid)).Nodup) (he : e ∈ es) :
    (ofEntities es).get? e.uid = some e := by
  cases h : (ofEntities es).get? e.uid with
  | none => exact absurd (List.mem_map_of_mem he) (get?_ofEntities_eq_none.mp h)
  | some x =>
    obtain ⟨hx, hu⟩ := mem_of_get?_ofEntities h
    rw [List.inj_on_of_nodup_map hes hx he hu]

end EntityView

namespace GameState

/-- What a view shows after a state has been folded into it. -/
theorem get?_applyTo (hs : s.extrapolated = false) (v : EntityView) (uid : UInt32) :
    (s.applyTo v).get? uid = if uid ∈ s.deletions then none
      else ((ofEntities s.entities).get? uid).or (if s.isFull = true then none else v.get? uid) := by
  simp only [applyTo, hs, Bool.false_eq_true, if_false, get?_eraseAll, get?_insertAll]
  cases s.isFull <;> simp

theorem hasUid_iff : s.hasUid uid = true ↔ uid ∈ s.entities.map (·.uid) := by
  simp [hasUid]

/-! ### Deltas -/

theorem mem_deletions_deltaFrom : uid ∈ (deltaFrom base current).deletions ↔
    uid ∈ base.entities.map (·.uid) ∧ uid ∉ current.entities.map (·.uid) := by
  rw [deltaFrom, List.mem_filter, Bool.not_eq_true', ← Bool.not_eq_true, hasUid_iff]

theorem mem_entities_deltaFrom : e ∈ (deltaFrom base current).entities ↔
    e ∈ current.entities ∧ (ofEntities base.entities).get? e.uid ≠ some e := by
  simp [deltaFrom, showsUnchanged]

/-- The entities of a delta: those of the later state at the uids where the two differ. -/
theorem get?_entities_deltaFrom (hc : (current.entities.map (·.uid)).Nodup) (uid : UInt32) :
    (ofEntities (deltaFrom base current).entities).get? uid =
      if (ofEntities base.entities).get? uid = (ofEntities current.entities).get? uid then none
      else (ofEntities current.entities).get? uid := by
  cases hd : (ofEntities (deltaFrom base current).entities).get? uid with
  | some e =>
    obtain ⟨hmem, rfl⟩ := mem_of_get?_ofEntities hd
    obtain ⟨hcur, hne⟩ := mem_entities_deltaFrom.mp hmem
    rw [get?_ofEntities_of_mem hc hcur, if_neg hne]
  | none =>
    cases hcur : (ofEntities current.entities).get? uid with
    | none => exact (ite_self none).symm
    | some e =>
      obtain ⟨hmem, rfl⟩ := mem_of_get?_ofEntities hcur
      have hnot := get?_ofEntities_eq_none.mp hd
      by_cases hb : (ofEntities base.entities).get? e.uid = some e
      · rw [if_pos hb]
      · exact absurd (List.mem_map_of_mem (mem_entities_deltaFrom.mpr ⟨hmem, hb⟩)) hnot

/-- A delta that is not full brings every view to the later state at the uids where its two states differ, and
    leaves the view as it is at the others. -/
theorem get?_applyTo_deltaFrom (hc : (current.entities.map (·.uid)).Nodup) (hb : base.toTick ≠ 0) (v : EntityView)
    (uid : UInt32) :
    ((deltaFrom base current).applyTo v).get? uid =
      if (ofEntities base.entities).get? uid = (ofEntities current.entities).get? uid then v.get? uid
      else (ofEntities current.entities).get? uid := by
  have hfull : ¬ (deltaFrom base current).isFull = true := fun h => hb (of_decide_eq_true h)
  rw [get?_applyTo rfl, get?_entities_deltaFrom hc, if_neg hfull]
  by_cases hdel : uid ∈ (deltaFrom base current).deletions
  · obtain ⟨hin, hout⟩ := mem_deletions_deltaFrom.mp hdel
    have hnone := get?_ofEntities_eq_none.mpr hout
    have hsome : (ofEntities base.entities).get? uid ≠ none := fun h => get?_ofEntities_eq_none.mp h hin
    rw [if_pos hdel, hnone, if_neg hsome]
  · rw [if_neg hdel]
    by_cases heq : (ofEntities base.entities).get? uid = (ofEntities current.entities).get? uid
    · rw [if_pos heq, if_pos heq, Option.none_or]
    · rw [if_neg heq, if_neg heq]
      cases hcur : (ofEntities current.entities).get? uid with
      | some e => rfl
      | none =>
        -- The uid is gone, so the delta would delete it.
        rw [hcur] at heq
        exact absurd (mem_deletions_deltaFrom.mpr
          ⟨not_not.mp fun h => heq (get?_ofEntities_eq_none.mpr h), get?_ofEntities_eq_none.mp hcur⟩) hdel

end GameState
end StateSync
