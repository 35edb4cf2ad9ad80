import StateSync.Proofs.State.Reach

/-! A client that lets ticks pass. A selection within the reach of the chain applies the states of the chain that are due
    at its tick, one after another, and the chain of the buffer that is left is the rest of it (`chainFrom_applyAll`). So
    it does not matter how many selections a stretch of the chain is taken in (`select_skip`). -/

namespace StateSync

/-- The tick to which states lead that are applied one after another from `tick` on. -/
def endOf (tick : UInt32) : List GameState → UInt32
  | [] => tick
  | s :: ss => endOf s.toTick ss

theorem endOf_append (tick : UInt32) (ss ss' : List GameState) : endOf tick (ss ++ ss') = endOf (endOf tick ss) ss' := by
  induction ss generalizing tick with
  | nil => rfl
  | cons s ss ih => exact ih s.toTick

theorem endOf_mem {tick : UInt32} {ss : List GameState} (h : ss ≠ []) : ∃ s ∈ ss, s.toTick = endOf tick ss := by
  induction ss generalizing tick with
  | nil => exact absurd rfl h
  | cons s ss ih =>
    by_cases hss : ss = []
    · subst hss
      exact ⟨s, List.mem_singleton_self s, rfl⟩
    · obtain ⟨x, hx, hend⟩ : ∃ x ∈ ss, x.toTick = endOf s.toTick ss := ih hss
      exact ⟨x, List.mem_cons_of_mem s hx, hend⟩

namespace StateBuffer
variable {b : StateBuffer} {s x : GameState} {ss front rest : List GameState} {tick last early clock : UInt32}

/-- The tick to which the chain from `tick` leads, which is `tick` itself if nothing leads on from there. -/
def chainEnd (b : StateBuffer) (tick : UInt32) : UInt32 := endOf tick (b.chainFrom tick)

/-- Applies states one after another. -/
def applyAll (b : StateBuffer) (ss : List GameState) : StateBuffer := ss.foldl apply b

/-! ### Applying the states of a chain -/

theorem applyAll_append (b : StateBuffer) (ss ss' : List GameState) :
    b.applyAll (ss ++ ss') = (b.applyAll ss).applyAll ss' := List.foldl_append

theorem Sound.applyAll (h : b.Sound) (ss : List GameState) : (b.applyAll ss).Sound := by
  induction ss generalizing b with
  | nil => exact h
  | cons s ss ih => exact ih (h.apply s)

theorem lastTick_applyAll (hl : b.lastTick = some last) (ss : List GameState) :
    (b.applyAll ss).lastTick = some (endOf last ss) := by
  induction ss generalizing b last with
  | nil => exact hl
  | cons s ss ih => exact ih (b := b.apply s) rfl

theorem not_holdsFull_applyAll (hfull : ¬ b.HoldsFull) (ss : List GameState) : ¬ (b.applyAll ss).HoldsFull := by
  induction ss generalizing b with
  | nil => exact hfull
  | cons s ss ih =>
    refine ih ?_
    rintro ⟨k, x, hx, hxfull⟩
    exact hfull ⟨k, x, (get?_apply hx).2, hxfull⟩

/-- What a state has dropped a later one would have dropped too. -/
theorem apply_apply (b : StateBuffer) (h : s.toTick < x.toTick) : (b.apply s).apply x = b.apply x := by
  have hheld : (b.held.above s.toTick).above x.toTick = b.held.above x.toTick := by
    refine SortedMap.ext_get? fun k => ?_
    simp only [SortedMap.get?_above]
    by_cases hk : x.toTick < k
    · rw [if_pos hk, if_pos hk, if_pos (UInt32.lt_trans h hk)]
    · rw [if_neg hk, if_neg hk]
  simp only [apply, hheld]

theorem applyAll_concat (b : StateBuffer) (h : (ss ++ [s]).Pairwise fun p s => p.toTick < s.toTick) :
    b.applyAll (ss ++ [s]) = b.apply s := by
  induction ss generalizing b with
  | nil => rfl
  | cons x ss ih =>
    obtain ⟨hx, hss⟩ := List.pairwise_cons.mp h
    have hlt : x.toTick < s.toTick := hx s (List.mem_append_right ss (List.mem_singleton_self s))
    exact (ih (b.apply x) hss).trans (b.apply_apply hlt)

/-! ### The chain that is left -/

theorem Sound.values_apply (h : b.Sound) (s : GameState) :
    (b.apply s).held.values = b.held.values.filter (s.toTick < ·.toTick) := by
  rw [SortedMap.values, SortedMap.values, List.filter_map]
  refine congrArg (List.map _) (List.filter_congr fun e he => ?_)
  rw [Function.comp_apply, h.filed (SortedMap.get?_eq_some_iff.mpr he)]

/-- Once the first state of a chain is applied, the chain goes on with the next, though all the states up to the first
    are gone, those that the chain has passed over among them. -/
theorem chainIn_filter (h : ss.Pairwise fun p s => p.toTick < s.toTick) (hchain : chainIn tick ss = s :: rest) :
    chainIn s.toTick (ss.filter (s.toTick < ·.toTick)) = rest := by
  induction ss with
  | nil => cases hchain
  | cons x ss ih =>
    obtain ⟨hx, hss⟩ := List.pairwise_cons.mp h
    by_cases hleads : x.chainsFrom tick = true
    · rw [chainIn, if_pos hleads] at hchain
      obtain ⟨rfl, hrest⟩ := List.cons.inj hchain
      have hkept : ss.filter (x.toTick < ·.toTick) = ss :=
        List.filter_eq_self.mpr fun y hy => decide_eq_true (hx y hy)
      rw [List.filter_cons_of_neg (by simp), hkept, hrest]
    · rw [chainIn, if_neg hleads] at hchain
      have hs : s ∈ ss := (chainIn_sublist tick ss).mem (hchain ▸ List.mem_cons_self)
      have hback : ¬ s.toTick < x.toTick := UInt32.not_lt.mpr (UInt32.le_of_lt (hx s hs))
      rw [List.filter_cons_of_neg (by simpa using hback)]
      exact ih hss hchain

theorem Sound.chainFrom_apply (h : b.Sound) (hchain : b.chainFrom tick = s :: rest) :
    (b.apply s).chainFrom s.toTick = rest := by
  rw [chainFrom, h.values_apply]
  exact chainIn_filter h.ascending hchain

theorem Sound.chainFrom_applyAll (h : b.Sound) (hchain : b.chainFrom tick = front ++ rest) :
    (b.applyAll front).chainFrom (endOf tick front) = rest := by
  induction front generalizing b tick with
  | nil => exact hchain
  | cons s front ih => exact ih (h.apply s) (h.chainFrom_apply hchain)

/-! ### The states that are due -/

theorem due_append_dropWhile (b : StateBuffer) (last clock : UInt32) :
    b.due last clock ++ (b.chainFrom last).dropWhile (·.toTick ≤ clock) = b.chainFrom last :=
  List.takeWhile_append_dropWhile

/-- What is due at a tick is what was due at an earlier one and what is due after that. -/
theorem Sound.due_eq_append (h : b.Sound) (last : UInt32) (hle : early ≤ clock) : b.due last clock =
    b.due last early ++ (b.applyAll (b.due last early)).due (endOf last (b.due last early)) clock := by
  have hsplit := b.due_append_dropWhile last early
  have hpast : ∀ x ∈ b.due last early, decide (x.toTick ≤ clock) = true := fun x hx =>
    decide_eq_true (UInt32.le_trans (h.mem_due_iff.mp hx).2 hle)
  rw [due.eq_1 (b.applyAll _), h.chainFrom_applyAll hsplit.symm, ← List.takeWhile_append_of_pos hpast, hsplit]
  rfl

/-! ### A selection within the reach of the chain -/

/-- The selections up to tick `clock` are to go by the chain from `last`, which leads as far as that. -/
structure Covers (b : StateBuffer) (last clock : UInt32) : Prop where
  sound : b.Sound
  lastTick : b.lastTick = some last
  noFull : ¬ b.HoldsFull
  reach : clock ≤ b.chainEnd last

theorem Covers.mono (h : b.Covers last clock) (hle : early ≤ clock) : b.Covers last early :=
  ⟨h.sound, h.lastTick, h.noFull, UInt32.le_trans hle h.reach⟩

/-- Applying what is due at any tick leaves the end of the chain where it is. -/
theorem Covers.applyAll_due (h : b.Covers last clock) (early : UInt32) :
    (b.applyAll (b.due last early)).Covers (endOf last (b.due last early)) clock where
  sound := h.sound.applyAll _
  lastTick := lastTick_applyAll h.lastTick _
  noFull := not_holdsFull_applyAll h.noFull _
  reach := by
    have hsplit := b.due_append_dropWhile last early
    rw [chainEnd, h.sound.chainFrom_applyAll hsplit.symm, ← endOf_append, hsplit]
    exact h.reach

theorem Covers.select_eq (h : b.Covers last clock) : b.select clock = b.applyChain clock (b.due last clock) := by
  by_cases hnil : b.chainFrom last = []
  · -- Nothing leads on from `last`, and the client is not past it.
    have hle : clock ≤ last := by
      have hreach := h.reach
      rwa [chainEnd, hnil] at hreach
    have hnone : ∀ r, b.Reaches last r → r < clock := by
      intro r hr
      obtain ⟨x, hx, -⟩ := h.sound.reaches_iff.mp hr
      rw [hnil] at hx
      cases hx
    rw [h.sound.select_starved h.lastTick h.noFull hnone, starve, if_pos hle, due, hnil]
    rfl
  · obtain ⟨s, hs, hlast⟩ : ∃ s ∈ b.chainFrom last, s.toTick = b.chainEnd last := endOf_mem hnil
    exact h.sound.select_chain h.lastTick h.noFull ⟨_, h.sound.reaches_iff.mpr ⟨s, hs, hlast⟩, h.reach⟩

/-- The selection hands out the states that are due, and the buffer that is left has them applied. -/
theorem Covers.select (h : b.Covers last clock) :
    (b.select clock).1.real = b.due last clock ∧ (b.select clock).1.isExtrapolated = false ∧
      (b.select clock).2 = (clock, b.applyAll (b.due last clock)) := by
  rw [h.select_eq]
  have hasc := h.sound.ascending_due last clock
  have hreal : ∀ x ∈ b.due last clock, x.extrapolated = false := by
    intro x hx
    obtain ⟨⟨-, hheld⟩, -⟩ := h.sound.mem_due_iff.mp hx
    exact (isWellFormed_iff.mp (h.sound.wellFormed hheld)).1
  rcases List.eq_nil_or_concat (b.due last clock) with hnil | ⟨front, s, hconcat⟩
  · rw [hnil]
    exact ⟨rfl, rfl, rfl⟩
  · rw [List.concat_eq_append] at hconcat
    rw [hconcat] at hreal hasc ⊢
    rw [applyChain, List.getLast?_concat, List.dropLast_concat, b.applyAll_concat hasc]
    exact ⟨(Selection.real_chosen _ hreal).1, hreal s (List.mem_append_right front (List.mem_singleton_self s)), rfl⟩

/-- A second selection at the same tick finds nothing due. -/
theorem Covers.select_again (h : b.Covers last clock) :
    (b.applyAll (b.due last clock)).select clock = (.nothing, clock, b.applyAll (b.due last clock)) := by
  have hnone := List.self_eq_append_right.mp (h.sound.due_eq_append last (UInt32.le_refl clock))
  rw [(h.applyAll_due clock).select_eq, hnone]
  rfl

end StateBuffer

namespace Course
open StateBuffer

/-- As long as no full state waits, and the client is not past the end of the chain from the last tick applied, a
    selection at an earlier tick and then one at `clock` hand out together what one at `clock` hands out, and leave the
    same buffer. None of them gives a placeholder or moves the client's tick, and another selection at the same tick
    finds nothing to apply. -/
theorem select_skip (settings : BufferSettings) (ops : List Operation) (last early clock : UInt32)
    (hl : (run settings ops).buffer.lastTick = some last) (hfull : ¬ (run settings ops).buffer.HoldsFull)
    (hle : early ≤ clock) (hend : clock ≤ (run settings ops).buffer.chainEnd last) :
    let b := (run settings ops).buffer
    let first := b.select early
    let second := first.2.2.select clock
    let whole := b.select clock
    first.1.real ++ second.1.real = whole.1.real ∧ second.2.2 = whole.2.2 ∧
      (first.1.isExtrapolated = false ∧ second.1.isExtrapolated = false ∧ whole.1.isExtrapolated = false) ∧
      (first.2.1 = early ∧ second.2.1 = clock ∧ whole.2.1 = clock) ∧
      whole.2.2.select clock = (.nothing, clock, whole.2.2) := by
  have h : (run settings ops).buffer.Covers last clock := ⟨(sound_run settings ops).buffer, hl, hfull, hend⟩
  obtain ⟨hfirst, hreal₁, hleft₁⟩ := (h.mono hle).select
  obtain ⟨hsecond, hreal₂, hleft₂⟩ := (h.applyAll_due early).select
  obtain ⟨hwhole, hreal, hleft⟩ := h.select
  have hdue := h.sound.due_eq_append last hle
  dsimp only
  rw [hleft₁, hleft₂, hleft]
  refine ⟨?_, ?_, ⟨hreal₁, hreal₂, hreal⟩, ⟨rfl, rfl, rfl⟩, h.select_again⟩
  · rw [hfirst, hsecond, hwhole, hdue]
  · rw [← applyAll_append, ← hdue]

/-- Deltas wait behind tick 1, one of which, from tick 4 to tick 5, cannot be reached. -/
def gapped : List Operation :=
  [.add (.full 1) 0, .select 0, .add (.blank 1 3) 0, .add (.blank 4 5) 0, .add (.blank 2 6) 0, .add (.blank 6 8) 0]

/-- The selection at tick 4 takes the state of tick 3 and drops nothing else; the one at tick 7 goes on from there, past
    the state that it cannot use. -/
theorem select_skip_gapped :
    let b := (run { minSize := 1 } gapped).buffer
    let first := b.select 4
    let second := first.2.2.select 7
    let whole := b.select 7
    b.lastTick = some 1 ∧ ¬ b.HoldsFull ∧ (4 : UInt32) ≤ 7 ∧ 7 ≤ b.chainEnd 1 ∧
      first.1.real = [.blank 1 3] ∧ second.1.real = [.blank 2 6] ∧
      first.1.real ++ second.1.real = whole.1.real ∧ second.2.2 = whole.2.2 ∧
      (first.1.isExtrapolated = false ∧ second.1.isExtrapolated = false ∧ whole.1.isExtrapolated = false) ∧
      (first.2.1 = 4 ∧ second.2.1 = 7 ∧ whole.2.1 = 7) ∧
      whole.2.2.select 7 = (.nothing, 7, whole.2.2) := by
  intro b
  have hl : b.lastTick = some 1 := by decide +kernel
  have hfull : ¬ b.HoldsFull := fullStates_eq_nil_iff.mp (by decide +kernel)
  have hend : 7 ≤ b.chainEnd 1 := by decide +kernel
  exact ⟨hl, hfull, by decide, hend, by decide +kernel, by decide +kernel,
    select_skip { minSize := 1 } gapped 1 4 7 hl hfull (by decide) hend⟩

end Course
end StateSync
