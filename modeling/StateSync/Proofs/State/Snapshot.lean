import StateSync.Proofs.State.View

/-! Snapshots: full states that list entities and say nothing else. A delta between two snapshots carries what differs
    between them and no more, and does just that to any view (`applyTo_deltaFrom`), whatever the view shows at the uids
    at which the snapshots agree. Only a delta from a snapshot of tick zero counts as full, and it is not always whole
    (`deltaFrom_standsAlone_iff`). -/

namespace StateSync

theorem ne_zero_of_one_le {t : UInt32} (h : 1 ≤ t) : t ≠ 0 := by
  rintro rfl
  exact absurd h (by decide)

namespace GameState
open EntityView

variable {s : GameState} {e : Entity}

/-- A full state that deletes nothing and is no placeholder. -/
structure IsSnapshot (s : GameState) : Prop where
  full : s.isFull = true
  real : s.extrapolated = false
  deletions : s.deletions = []

/-- A client that folds a snapshot shows its entities, whatever it has shown before. -/
theorem IsSnapshot.applyTo (h : s.IsSnapshot) (v : EntityView) : s.applyTo v = ofEntities s.entities := by
  refine SortedMap.ext_get? fun uid => ?_
  rw [get?_applyTo h.real, h.deletions, if_neg List.not_mem_nil, if_pos h.full, Option.or_none]

theorem mem_entities_iff (huids : (s.entities.map (·.uid)).Nodup) :
    e ∈ s.entities ↔ (ofEntities s.entities).get? e.uid = some e :=
  ⟨get?_ofEntities_of_mem huids, fun h => (mem_of_get?_ofEntities h).1⟩

/-- At the uids at which two snapshots differ, the delta brings any view to the later one: it adds or changes what the
    later one has, and removes what it does not have. At all others it leaves the view as it is. So it brings the view of
    the earlier snapshot to that of the later, and it carries exactly the entities that are new or changed, and the uids
    that are gone. -/
theorem applyTo_deltaFrom (base current : GameState) (hbase : base.IsSnapshot) (hcurrent : current.IsSnapshot)
    (htick : 1 ≤ base.toTick) (huids : (current.entities.map (·.uid)).Nodup) :
    let before := base.applyTo .empty
    let after := current.applyTo .empty
    let delta := deltaFrom base current
    (∀ v uid, (delta.applyTo v).get? uid =
      if before.get? uid = after.get? uid then v.get? uid else after.get? uid) ∧
    (∀ v w, delta.applyTo (base.applyTo v) = current.applyTo w) ∧
    (∀ e, e ∈ delta.entities ↔ after.get? e.uid = some e ∧ before.get? e.uid ≠ some e) ∧
    ∀ uid, uid ∈ delta.deletions ↔ before.get? uid ≠ none ∧ after.get? uid = none := by
  have hfold := get?_applyTo_deltaFrom huids (ne_zero_of_one_le htick)
  simp only [hbase.applyTo, hcurrent.applyTo]
  refine ⟨hfold, fun _ _ => SortedMap.ext_get? fun uid => ?_, fun e => ?_, fun uid => ?_⟩
  · rw [hfold]
    by_cases hsame : (ofEntities base.entities).get? uid = (ofEntities current.entities).get? uid
    · rw [if_pos hsame, hsame]
    · rw [if_neg hsame]
  · rw [mem_entities_deltaFrom, mem_entities_iff huids]
  · rw [mem_deletions_deltaFrom, get?_ofEntities_eq_none, Ne, get?_ofEntities_eq_none, not_not]

/-- Entity 1 is listed twice, and has come to be what it was listed as first. -/
def listedTwice : GameState :=
  { full 10 with entities := [⟨1, [⟨0, [5]⟩]⟩, ⟨2, []⟩, ⟨1, [⟨0, [7]⟩]⟩, ⟨3, []⟩] }

def relisted : GameState := { full 12 with entities := [⟨4, []⟩, ⟨1, [⟨0, [5]⟩]⟩, ⟨2, []⟩] }

/-- Of the entities that `listedTwice` lists under one uid the last counts. -/
theorem applyTo_deltaFrom_listedTwice :
    let before := listedTwice.applyTo .empty
    let after := relisted.applyTo .empty
    let delta := deltaFrom listedTwice relisted
    listedTwice.IsSnapshot ∧ relisted.IsSnapshot ∧ 1 ≤ listedTwice.toTick ∧
    (relisted.entities.map (·.uid)).Nodup ∧ delta.entities = [⟨4, []⟩, ⟨1, [⟨0, [5]⟩]⟩] ∧ delta.deletions = [3] ∧
    (∀ v uid, (delta.applyTo v).get? uid =
      if before.get? uid = after.get? uid then v.get? uid else after.get? uid) ∧
    (∀ v w, delta.applyTo (listedTwice.applyTo v) = relisted.applyTo w) ∧
    (∀ e, e ∈ delta.entities ↔ after.get? e.uid = some e ∧ before.get? e.uid ≠ some e) ∧
    ∀ uid, uid ∈ delta.deletions ↔ before.get? uid ≠ none ∧ after.get? uid = none := by
  have hbase : listedTwice.IsSnapshot := ⟨rfl, rfl, rfl⟩
  have hcurrent : relisted.IsSnapshot := ⟨rfl, rfl, rfl⟩
  have huids : (relisted.entities.map (·.uid)).Nodup := by decide
  exact ⟨hbase, hcurrent, by decide, huids, by decide, by decide,
    applyTo_deltaFrom listedTwice relisted hbase hcurrent (by decide) huids⟩

/-! ### Deltas that count as full -/

section
variable {base current : GameState} {uid : UInt32}

/-- Whether a state counts as full is told by its first tick, and a delta starts at the tick of its base. -/
theorem isFull_deltaFrom : (deltaFrom base current).isFull = true ↔ base.toTick = 0 := decide_eq_true_iff

/-- A delta that counts as full makes a client start from nothing, so the client shows what the delta lists and nothing
    else. -/
theorem applyTo_deltaFrom_of_isFull (hfull : (deltaFrom base current).isFull = true) (v : EntityView) :
    (deltaFrom base current).applyTo v = ofEntities (deltaFrom base current).entities := by
  refine SortedMap.ext_get? fun uid => ?_
  rw [get?_applyTo rfl, if_pos hfull, Option.or_none]
  by_cases hdel : uid ∈ (deltaFrom base current).deletions
  · have hgone : (ofEntities (deltaFrom base current).entities).get? uid = none := by
      refine get?_ofEntities_eq_none.mpr fun hmem => (mem_deletions_deltaFrom.mp hdel).2 ?_
      obtain ⟨e, he, rfl⟩ := List.mem_map.mp hmem
      exact List.mem_map_of_mem (mem_entities_deltaFrom.mp he).1
    rw [if_pos hdel, hgone]
  · rw [if_neg hdel]

/-- Of the entities of the later state a delta lists those that the earlier one does not have as they are. -/
theorem entities_deltaFrom (hbase : (base.entities.map (·.uid)).Nodup) :
    (deltaFrom base current).entities = current.entities.filter (· ∉ base.entities) := by
  refine List.filter_congr fun e _ => ?_
  have hsame : (ofEntities base.entities).get? e.uid = some e ↔ e ∈ base.entities := (mem_entities_iff hbase).symm
  simp [showsUnchanged, hsame]

/-- A delta shows all entities of the later state exactly if the earlier one has none of them as it is. -/
theorem ofEntities_deltaFrom_eq_iff (hbase : (base.entities.map (·.uid)).Nodup)
    (huids : (current.entities.map (·.uid)).Nodup) :
    ofEntities (deltaFrom base current).entities = ofEntities current.entities ↔
      ∀ e ∈ current.entities, e ∉ base.entities := by
  rw [entities_deltaFrom hbase]
  constructor
  · intro heq e he
    have hlisted := get?_ofEntities_of_mem huids he
    rw [← heq] at hlisted
    simpa using (List.mem_filter.mp (mem_of_get?_ofEntities hlisted).1).2
  · intro hnew
    rw [List.filter_eq_self.mpr fun e he => decide_eq_true (hnew e he)]

end

/-- A delta counts as full exactly if its base is a state of tick zero. It then shows every client the entities that the
    base does not have as they are, and no others. So a delta that counts as full stands for the later snapshot, whatever
    a client has shown before, exactly if its base is not of tick zero, or has no entity as the later snapshot has it. -/
theorem deltaFrom_standsAlone_iff (base current : GameState) (hcurrent : current.IsSnapshot)
    (hbase : (base.entities.map (·.uid)).Nodup) (huids : (current.entities.map (·.uid)).Nodup) :
    let delta := deltaFrom base current
    (delta.isFull = true ↔ base.toTick = 0) ∧
    (delta.isFull = true → ∀ v, delta.applyTo v = ofEntities (current.entities.filter (· ∉ base.entities))) ∧
    ((delta.isFull = true → ∀ v w, delta.applyTo v = current.applyTo w) ↔
      base.toTick ≠ 0 ∨ ∀ e ∈ current.entities, e ∉ base.entities) := by
  intro delta
  have htick : delta.isFull = true ↔ base.toTick = 0 := isFull_deltaFrom
  refine ⟨htick, fun hfull v => entities_deltaFrom hbase ▸ applyTo_deltaFrom_of_isFull hfull v, ?_⟩
  rw [← ofEntities_deltaFrom_eq_iff hbase huids, ← imp_iff_not_or, ← htick]
  refine forall_congr' fun hfull => ?_
  simp only [applyTo_deltaFrom_of_isFull hfull, hcurrent.applyTo, delta]
  exact ⟨fun h => h .empty .empty, fun h _ _ => h⟩

/-- A state of tick zero, of which a later one has nothing as it was. -/
def primeval : GameState := { full 0 with entities := [⟨1, [⟨0, [5]⟩]⟩, ⟨2, []⟩] }

def renewed : GameState := { full 5 with entities := [⟨1, [⟨0, [6]⟩]⟩, ⟨3, []⟩] }

theorem deltaFrom_standsAlone_iff_renewed :
    renewed.IsSnapshot ∧ (primeval.entities.map (·.uid)).Nodup ∧ (renewed.entities.map (·.uid)).Nodup ∧
    (deltaFrom primeval renewed).isFull = true ∧ ∀ v w, (deltaFrom primeval renewed).applyTo v = renewed.applyTo w := by
  have hcurrent : renewed.IsSnapshot := ⟨rfl, rfl, rfl⟩
  have hbase : (primeval.entities.map (·.uid)).Nodup := by decide
  have huids : (renewed.entities.map (·.uid)).Nodup := by decide
  obtain ⟨hfull, -, halone⟩ := deltaFrom_standsAlone_iff primeval renewed hcurrent hbase huids
  exact ⟨hcurrent, hbase, huids, hfull.mpr rfl, halone.mpr (Or.inr (by decide)) (hfull.mpr rfl)⟩

/-- An entity that is at tick 5 what it was at tick zero is missing from the delta, which counts as full nevertheless. -/
theorem deltaFrom_of_tick_zero_loses :
    let base : GameState := { full 0 with entities := [⟨1, []⟩] }
    let current : GameState := { full 5 with entities := [⟨1, []⟩] }
    base.IsSnapshot ∧ current.IsSnapshot ∧ (base.entities.map (·.uid)).Nodup ∧ (current.entities.map (·.uid)).Nodup ∧
    (deltaFrom base current).isFull = true ∧
    (deltaFrom base current).applyTo (base.applyTo .empty) = .empty ∧ current.applyTo .empty ≠ .empty :=
  ⟨⟨rfl, rfl, rfl⟩, ⟨rfl, rfl, rfl⟩, by decide, by decide, by decide, by decide, by decide⟩

end GameState
end StateSync
