import StateSync.Proofs.State.Skipping

/-! The chain as a loop: on from the tick that it has come to it looks, among all the states held, for the first that
    leads on (`Walks`). The loop ends, and comes to every tick that any choice of states would lead to; and as long as
    there is room, one more state takes no tick away from it (`chainFrom_complete`). -/

namespace StateSync.StateBuffer
variable {b b' : StateBuffer} {s x : GameState} {ss ss' : List GameState} {k t tick last : UInt32}

/-- From `tick` on the nearest state held is taken, and the next one from where it leads to, until there is none; `ss`
    are the states taken. -/
inductive Walks (b : StateBuffer) : UInt32 → List GameState → Prop where
  | stop {tick : UInt32} (none : b.following tick = none) : Walks b tick []
  | go {tick : UInt32} {s : GameState} {ss : List GameState} (next : b.following tick = some s)
      (rest : Walks b s.toTick ss) : Walks b tick (s :: ss)

/-- Whatever was held for a tick, there is now a state for that tick that leads on from wherever the old one did. -/
def Surpasses (b' b : StateBuffer) : Prop :=
  ∀ k x, b.held.get? k = some x → ∃ y, b'.held.get? k = some y ∧ y.fromTick ≤ x.fromTick

/-! ### The loop -/

theorem chainIn_of_find?_eq_none (h : ss.find? (·.chainsFrom tick) = none) : chainIn tick ss = [] := by
  induction ss with
  | nil => rfl
  | cons x ss ih =>
    obtain ⟨hx, hss⟩ := List.forall_mem_cons.mp (List.find?_eq_none.mp h)
    rw [chainIn, if_neg hx]
    exact ih (List.find?_eq_none.mpr hss)

theorem chainIn_cons_of_le (h : x.toTick ≤ tick) : chainIn tick (x :: ss) = chainIn tick ss := by
  rw [chainIn, if_neg]
  exact fun hleads => UInt32.not_lt.mpr h (GameState.chainsFrom_iff.mp hleads).2

/-- To go through the states only once is enough: none that was passed over leads on from the one taken. -/
theorem chainIn_of_find?_eq_some (h : ss.Pairwise fun p s => p.toTick < s.toTick)
    (hs : ss.find? (·.chainsFrom tick) = some s) : chainIn tick ss = s :: chainIn s.toTick ss := by
  induction ss with
  | nil => cases hs
  | cons x ss ih =>
    obtain ⟨hx, hss⟩ := List.pairwise_cons.mp h
    by_cases hleads : x.chainsFrom tick = true
    · rw [List.find?_cons_of_pos (p := fun y : GameState => y.chainsFrom tick) hleads] at hs
      obtain rfl := Option.some.inj hs
      rw [chainIn, if_pos hleads, chainIn_cons_of_le (UInt32.le_refl _)]
    · rw [List.find?_cons_of_neg (p := fun y : GameState => y.chainsFrom tick) hleads] at hs
      have hpast : x.toTick ≤ s.toTick := UInt32.le_of_lt (hx s (List.mem_of_find?_eq_some hs))
      rw [chainIn, if_neg hleads, chainIn_cons_of_le hpast]
      exact ih hss hs

theorem Walks.unique (h : b.Walks tick ss) (h' : b.Walks tick ss') : ss = ss' := by
  induction h generalizing ss' with
  | stop none =>
    cases h' with
    | stop _ => rfl
    | go next _ => cases none.symm.trans next
  | go next _ ih =>
    cases h' with
    | stop none => cases none.symm.trans next
    | go next' rest =>
      obtain rfl := Option.some.inj (next.symm.trans next')
      rw [ih rest]

theorem Filed.walks_chainFrom (h : b.Filed) (tick : UInt32) : b.Walks tick (b.chainFrom tick) := by
  -- Each round takes one of the states of the chain, of which there are only so many.
  obtain ⟨ss, hss⟩ : ∃ ss, b.chainFrom tick = ss := ⟨_, rfl⟩
  rw [hss]
  induction ss generalizing tick with
  | nil =>
    refine .stop (Option.eq_none_iff_forall_ne_some.mpr fun s hs => ?_)
    cases hss.symm.trans (chainIn_of_find?_eq_some h.ascending hs)
  | cons x ss ih =>
    cases hnext : b.following tick with
    | none => cases hss.symm.trans (chainIn_of_find?_eq_none hnext)
    | some s =>
      have hsplit : b.chainFrom tick = s :: b.chainFrom s.toTick := chainIn_of_find?_eq_some h.ascending hnext
      obtain ⟨rfl, hrest⟩ := List.cons.inj (hss.symm.trans hsplit)
      exact .go hnext (ih x.toTick hrest.symm)

theorem Filed.walks_iff (h : b.Filed) : b.Walks tick ss ↔ ss = b.chainFrom tick := by
  constructor
  · exact fun hw => hw.unique (h.walks_chainFrom tick)
  · rintro rfl
    exact h.walks_chainFrom tick

/-! ### One more state -/

theorem Filed.add (h : b.Filed) (s : GameState) (origin : Nat) : (b.add s origin).1.Filed := by
  cases ha : b.accepts s with
  | false =>
    rw [add_of_not_accepts ha]
    exact h
  | true =>
    rw [add_of_accepts ha]
    intro k x hx
    rcases get?_hold hx with ⟨hk, rfl⟩ | hx
    · exact hk
    · exact h k x hx

theorem surpasses_add (hroom : b.size < b.settings.maxSize) (s : GameState) (origin : Nat) :
    (b.add s origin).1.Surpasses b := by
  intro k x hx
  cases ha : b.accepts s with
  | false =>
    rw [add_of_not_accepts ha]
    exact ⟨x, hx, UInt32.le_refl _⟩
  | true =>
    have hfits : (b.held.insert s.toTick s).size ≤ b.settings.maxSize :=
      Nat.le_trans (b.held.size_insert_le s.toTick s) hroom
    rw [add_of_accepts ha]
    dsimp only [hold]
    rw [SortedMap.greatest_of_size_le hfits, SortedMap.get?_insert]
    by_cases hk : s.toTick = k
    · -- Only a full state comes in the place of another.
      subst hk
      simp only [accepts, isSuperseded, hx, Option.any_some, Bool.and_eq_true, Bool.not_eq_true', Bool.or_eq_false_iff,
        Bool.not_eq_false'] at ha
      have hzero : s.fromTick = 0 := of_decide_eq_true ha.2.2
      rw [if_pos rfl]
      exact ⟨s, rfl, hzero ▸ UInt32.zero_le⟩
    · rw [if_neg hk]
      exact ⟨x, hx, UInt32.le_refl _⟩

/-- A step by an old state can be made by the one that has come in its place. -/
theorem Surpasses.leads (h : b'.Surpasses b) (hb : b.Filed) (hb' : b'.Filed) (hx : b.held.get? k = some x)
    (hleads : x.chainsFrom tick = true) :
    ∃ y, b'.held.get? k = some y ∧ y.chainsFrom tick = true ∧ y.toTick = x.toTick := by
  obtain ⟨y, hy, hfrom⟩ := h k x hx
  have htick : y.toTick = x.toTick := (hb' k y hy).trans (hb k x hx).symm
  obtain ⟨hle, hlt⟩ := GameState.chainsFrom_iff.mp hleads
  exact ⟨y, hy, GameState.chainsFrom_iff.mpr ⟨UInt32.le_trans hfrom hle, htick ▸ hlt⟩, htick⟩

theorem Surpasses.reaches (h : b'.Surpasses b) (hb : b.Filed) (hb' : b'.Filed) (hr : b.Reaches last t) :
    b'.Reaches last t := by
  induction hr with
  | first held leads =>
    obtain ⟨y, hy, hleads, htick⟩ := h.leads hb hb' held leads
    exact htick ▸ .first hy hleads
  | further _ held leads ih =>
    obtain ⟨y, hy, hleads, htick⟩ := h.leads hb hb' held leads
    exact htick ▸ .further ih hy hleads

/-! ### Ticks -/

theorem Filed.mem_ticks_iff (h : b.Filed) : t ∈ (b.chainFrom tick).map (·.toTick) ↔ b.Reaches tick t := by
  rw [h.reaches_iff, List.mem_map]

theorem Filed.ascending_ticks (h : b.Filed) (tick : UInt32) :
    (tick :: (b.chainFrom tick).map (·.toTick)).Pairwise (· < ·) := by
  refine List.pairwise_cons.mpr ⟨fun t ht => ?_, List.pairwise_map.mpr (h.ascending_chainFrom tick)⟩
  have hr := h.mem_ticks_iff.mp ht
  clear ht
  induction hr with
  | first _ leads => exact (GameState.chainsFrom_iff.mp leads).2
  | further _ _ leads ih => exact UInt32.lt_trans ih (GameState.chainsFrom_iff.mp leads).2

/-- In a buffer of any states, each held under the tick that it leads to: the loop ends, with the states of the chain,
    one for each round. Their ticks go strictly up, and they are all the ticks that can be reached by states of which
    each leads on from where the one before it has led to. If the buffer is not full, none of these ticks is lost when a
    state is added, whatever that state is and whatever it replaces. -/
theorem chainFrom_complete (b : StateBuffer) (tick : UInt32) (filed : b.Filed) :
    let ticks (b : StateBuffer) := (b.chainFrom tick).map (·.toTick)
    (∀ ss, b.Walks tick ss ↔ ss = b.chainFrom tick) ∧
    (tick :: ticks b).Pairwise (· < ·) ∧
    (∀ t, t ∈ ticks b ↔ b.Reaches tick t) ∧
    (b.size < b.settings.maxSize → ∀ s origin, ∀ t ∈ ticks b, t ∈ ticks (b.add s origin).1) := by
  intro ticks
  refine ⟨fun ss => filed.walks_iff, filed.ascending_ticks tick, fun t => filed.mem_ticks_iff,
    fun hroom s origin t ht => ?_⟩
  have hr := (surpasses_add hroom s origin).reaches filed (filed.add s origin) (filed.mem_ticks_iff.mp ht)
  exact (filed.add s origin).mem_ticks_iff.mpr hr

/-- Spans that overlap, one of which cannot be reached from tick 1, and room for one more. -/
def crossing : StateBuffer :=
  (Course.run { maxSize := 5 }
    [.add (.blank 1 4) 0, .add (.blank 0 2) 0, .add (.blank 3 6) 0, .add (.blank 7 9) 0]).buffer

/-- From tick 1 the loop goes by the nearest tick, from which it comes to the others as well. A full state for tick 4
    takes the place of the delta, and no tick is lost. -/
theorem chainFrom_complete_crossing : crossing.Filed ∧ crossing.size < crossing.settings.maxSize ∧
    (crossing.chainFrom 1).map (·.toTick) = [2, 4, 6] ∧ crossing.Walks 1 (crossing.chainFrom 1) ∧
    (crossing.add (.full 4) 0).2 = true ∧
    ∀ t ∈ [2, 4, 6], t ∈ ((crossing.add (.full 4) 0).1.chainFrom 1).map (·.toTick) := by
  have filed : crossing.Filed := (Course.sound_run _ _).buffer.isFiled
  have hroom : crossing.size < crossing.settings.maxSize := by decide +kernel
  have hticks : (crossing.chainFrom 1).map (·.toTick) = [2, 4, 6] := by decide +kernel
  obtain ⟨hwalks, -, -, hadd⟩ := chainFrom_complete crossing 1 filed
  refine ⟨filed, hroom, hticks, (hwalks _).mpr rfl, by decide +kernel, fun t ht => ?_⟩
  have hheld : t ∈ (crossing.chainFrom 1).map (·.toTick) := by
    rw [hticks]
    exact ht
  exact hadd hroom (.full 4) 0 t hheld

end StateSync.StateBuffer
