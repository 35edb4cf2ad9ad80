import Mathlib.Data.List.Chain
import StateSync.Proofs.SortedMap
import StateSync.State.Buffer

/-! What the buffer does: which states it takes in and holds, how the states of a chain follow one
    another, and all that a selection can come to (`Selects`). -/

namespace StateSync

/-- Each state leads on, without a gap, from the one before it; the first leads on from `tick`. -/
def Follows (tick : UInt32) : List GameState → Prop
  | [] => True
  | s :: ss => s.chainsFrom tick = true ∧ Follows s.toTick ss

theorem Follows.left {tick : UInt32} {ss ss' : List GameState} (h : Follows tick (ss ++ ss')) : Follows tick ss := by
  induction ss generalizing tick with
  | nil => trivial
  | cons s ss ih => exact ⟨h.1, ih h.2⟩

theorem Follows.initial {tick : UInt32} {ss ss' : List GameState} (h : Follows tick ss') (hp : ss <+: ss') :
    Follows tick ss := by
  obtain ⟨rest, rfl⟩ := hp
  exact h.left

theorem Follows.isChain {tick : UInt32} {ss : List GameState} (h : Follows tick ss) :
    (∀ s ∈ ss.head?, s.chainsFrom tick = true) ∧ ss.IsChain fun p s => s.chainsFrom p.toTick = true := by
  induction ss generalizing tick with
  | nil => exact ⟨nofun, List.IsChain.nil⟩
  | cons s ss ih =>
    obtain ⟨hhead, htail⟩ := ih h.2
    refine ⟨fun x hx => ?_, List.isChain_cons.mpr ⟨hhead, htail⟩⟩
    obtain rfl := Option.some.inj hx
    exact h.1

/-- States of which each leads on from the one before lead to later and later ticks. -/
theorem increasing_of_isChain {ss : List GameState} (h : ss.IsChain fun p s => s.chainsFrom p.toTick = true) :
    ss.Pairwise fun p s => p.toTick < s.toTick := by
  have hlt : ss.IsChain fun p s => p.toTick < s.toTick := h.imp fun p s hs => (GameState.chainsFrom_iff.mp hs).2
  have : Trans (fun p s : GameState => p.toTick < s.toTick) (fun p s : GameState => p.toTick < s.toTick)
      (fun p s : GameState => p.toTick < s.toTick) := ⟨UInt32.lt_trans⟩
  exact List.isChain_iff_pairwise.mp hlt

namespace StateBuffer
variable {b b' : StateBuffer} {s x : GameState} {k tick clock : UInt32}

/-! ### The states that are held -/

/-- The states waiting are well-formed, each is filed under the tick it leads to, which has not been applied
    yet, and there are no more of them than the settings allow. -/
structure Sound (b : StateBuffer) : Prop where
  filed : ∀ {k s}, b.held.get? k = some s → s.toTick = k
  wellFormed : ∀ {k s}, b.held.get? k = some s → isWellFormed s = true
  ahead : ∀ {k s}, b.held.get? k = some s → ∀ last ∈ b.lastTick, last < k
  bounded : b.size ≤ b.settings.maxSize

theorem isWellFormed_iff : isWellFormed s = true ↔ s.extrapolated = false ∧ s.fromTick < s.toTick := by
  simp [isWellFormed]

theorem sound_create (settings : BufferSettings) : (create settings).Sound where
  filed h := by cases h
  wellFormed h := by cases h
  ahead h := by cases h
  bounded := Nat.zero_le _

/-! ### Arrival -/

theorem add_of_accepts {origin : Nat} (h : b.accepts s = true) :
    b.add s origin = ({ b.hold s with newestOrigin := some ((b.newestOrigin.getD origin).max origin) }, true) :=
  if_pos h

theorem add_of_not_accepts {origin : Nat} (h : b.accepts s = false) : b.add s origin = (b, false) := by
  simp [add, h]

theorem settings_add (b : StateBuffer) (s : GameState) (origin : Nat) : (b.add s origin).1.settings = b.settings := by
  unfold add
  split <;> rfl

theorem lastApplied_add (b : StateBuffer) (s : GameState) (origin : Nat) :
    (b.add s origin).1.lastApplied = b.lastApplied := by
  unfold add
  split <;> rfl

theorem isWellFormed_of_accepts (h : b.accepts s = true) : isWellFormed s = true := by
  simp only [accepts, Bool.and_eq_true] at h
  exact h.1.1

theorem lt_of_accepts (h : b.accepts s = true) : ∀ last ∈ b.lastTick, last < s.toTick := by
  intro last hlast
  simp only [accepts, Bool.and_eq_true, Bool.not_eq_true', isLate] at h
  have hlate := h.1.2
  rw [Option.mem_def.mp hlast, Option.any_some, decide_eq_false_iff_not] at hlate
  exact UInt32.not_le.mp hlate

theorem get?_hold (h : (b.hold s).held.get? k = some x) : (s.toTick = k ∧ x = s) ∨ b.held.get? k = some x := by
  have hins := SortedMap.get?_of_greatest h
  rw [SortedMap.get?_insert] at hins
  by_cases hk : s.toTick = k
  · rw [if_pos hk] at hins
    exact Or.inl ⟨hk, (Option.some.inj hins).symm⟩
  · rw [if_neg hk] at hins
    exact Or.inr hins

theorem Sound.hold (h : b.Sound) (ha : b.accepts s = true) : (b.hold s).Sound where
  filed hx := by
    rcases get?_hold hx with ⟨hk, rfl⟩ | hx
    · exact hk
    · exact h.filed hx
  wellFormed hx := by
    rcases get?_hold hx with ⟨-, rfl⟩ | hx
    · exact isWellFormed_of_accepts ha
    · exact h.wellFormed hx
  ahead hx last hlast := by
    rcases get?_hold hx with ⟨rfl, -⟩ | hx
    · exact lt_of_accepts ha last hlast
    · exact h.ahead hx last hlast
  bounded := SortedMap.size_greatest_le _ _

theorem Sound.add (h : b.Sound) (s : GameState) (origin : Nat) : (b.add s origin).1.Sound := by
  cases ha : b.accepts s with
  | false =>
    rw [add_of_not_accepts ha]
    exact h
  | true =>
    rw [add_of_accepts ha]
    have hh := h.hold ha
    exact ⟨hh.filed, hh.wellFormed, hh.ahead, hh.bounded⟩

/-! ### Chains -/

theorem follows_chainIn (tick : UInt32) (ss : List GameState) : Follows tick (chainIn tick ss) := by
  induction ss generalizing tick with
  | nil => trivial
  | cons s ss ih =>
    by_cases hs : s.chainsFrom tick = true
    · rw [chainIn, if_pos hs]
      exact ⟨hs, ih s.toTick⟩
    · rw [chainIn, if_neg hs]
      exact ih tick

theorem chainIn_sublist (tick : UInt32) (ss : List GameState) : (chainIn tick ss).Sublist ss := by
  induction ss generalizing tick with
  | nil => exact List.Sublist.slnil
  | cons s ss ih =>
    by_cases hs : s.chainsFrom tick = true
    · rw [chainIn, if_pos hs]
      exact (ih s.toTick).cons_cons s
    · rw [chainIn, if_neg hs]
      exact (ih tick).cons s

theorem mem_held_of_mem_chainFrom (h : s ∈ b.chainFrom tick) : ∃ k, b.held.get? k = some s :=
  SortedMap.mem_values.mp ((chainIn_sublist tick _).mem h)

theorem mem_fullStates : s ∈ b.fullStates ↔ (∃ k, b.held.get? k = some s) ∧ s.isFull = true := by
  rw [fullStates, List.mem_filter, List.mem_reverse, SortedMap.mem_values]

/-! ### Selection -/

/-- All that a selection can come to, with the tick the client then holds and the buffer that is left. -/
inductive Selects (b : StateBuffer) (clock : UInt32) : Selection × UInt32 × StateBuffer → Prop where
  /-- The client waits. -/
  | wait : Selects b clock (.nothing, clock, b)
  /-- The client goes back to the last tick applied. -/
  | rewind {last : UInt32} : b.lastTick = some last → last < clock → Selects b clock (.nothing, last, b)
  /-- A placeholder covers the gap. -/
  | extrapolate {last : UInt32} : b.lastTick = some last → last < clock →
      Selects b clock (.chosen (.placeholder last clock) none [], clock, b)
  /-- A full state takes over. -/
  | full {k : UInt32} {s : GameState} : b.held.get? k = some s → s.isFull = true →
      Selects b clock (b.applyFull s)
  /-- The chain from the last tick applied is followed up to `s`. -/
  | follow {last : UInt32} {skipped : List GameState} {s : GameState} : b.lastTick = some last →
      skipped ++ [s] <+: b.chainFrom last →
      Selects b clock (.chosen s ((b.apply s).following s.toTick) skipped, clock, b.apply s)

theorem selectFirst_selects (b : StateBuffer) (clock : UInt32) : Selects b clock (b.selectFirst clock) := by
  unfold selectFirst
  split
  · exact .wait
  · split
    · rename_i s hs
      obtain ⟨⟨k, hk⟩, hfull⟩ := mem_fullStates.mp (List.mem_of_find?_eq_some hs)
      exact .full hk hfull
    · exact .wait

theorem starve_selects {last : UInt32} (hl : b.lastTick = some last) : Selects b clock (b.starve last clock) := by
  unfold starve
  by_cases hc : clock ≤ last
  · rw [if_pos hc]
    exact .wait
  · have hlt := UInt32.not_le.mp hc
    rw [if_neg hc]
    split
    · exact .extrapolate hl hlt
    · exact .rewind hl hlt

theorem applyChain_selects {last : UInt32} {chain : List GameState} (hl : b.lastTick = some last)
    (hp : chain <+: b.chainFrom last) : Selects b clock (b.applyChain clock chain) := by
  unfold applyChain
  split
  · exact .wait
  · rename_i s hs
    refine .follow hl ?_
    rw [List.dropLast_append_getLast? s hs]
    exact hp

theorem selectNext_selects {last : UInt32} (hl : b.lastTick = some last) :
    Selects b clock (b.selectNext last clock) := by
  unfold selectNext
  split
  · rename_i s hs
    obtain ⟨⟨k, hk⟩, hfull⟩ := mem_fullStates.mp (List.mem_of_head? hs)
    exact .full hk hfull
  · dsimp only
    split
    · exact applyChain_selects hl (List.takeWhile_prefix _)
    · exact starve_selects hl

theorem select_selects (b : StateBuffer) (clock : UInt32) : Selects b clock (b.select clock) := by
  unfold select
  split
  · exact selectFirst_selects b clock
  · rename_i last hl
    exact selectNext_selects hl

theorem Selects.settings_eq {r : Selection × UInt32 × StateBuffer} (h : Selects b clock r) :
    r.2.2.settings = b.settings := by
  cases h <;> rfl

theorem get?_apply (h : (b.apply s).held.get? k = some x) : s.toTick < k ∧ b.held.get? k = some x := by
  simp only [StateBuffer.apply, SortedMap.get?_above] at h
  by_cases hk : s.toTick < k
  · rw [if_pos hk] at h
    exact ⟨hk, h⟩
  · rw [if_neg hk] at h
    cases h

theorem Sound.apply (h : b.Sound) (s : GameState) : (b.apply s).Sound where
  filed hx := h.filed (get?_apply hx).2
  wellFormed hx := h.wellFormed (get?_apply hx).2
  ahead hx last hlast := by
    obtain rfl := Option.some.inj hlast
    exact (get?_apply hx).1
  bounded := Nat.le_trans (SortedMap.size_filterKeys_le _ _) h.bounded

theorem Sound.selects {r : Selection × UInt32 × StateBuffer} (h : b.Sound) (hs : Selects b clock r) :
    r.2.2.Sound := by
  cases hs with
  | wait => exact h
  | rewind _ _ => exact h
  | extrapolate _ _ => exact h
  | full _ _ => exact h.apply _
  | follow _ _ => exact h.apply _

end StateBuffer
end StateSync
