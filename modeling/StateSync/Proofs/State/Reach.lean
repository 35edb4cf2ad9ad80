import Mathlib.Order.Bounds.Defs
import StateSync.Proofs.State.Course

/-! Which ticks the buffer could come to from the last one applied, by any of the states it holds (`Reaches`). Going on
    by the nearest state each time comes to all of them (`reaches_iff`), as whatever leads over the nearest also leads
    on from it. So a selection takes what these ticks, and not the way to them, ask for (`select_primed`). -/

namespace StateSync.StateBuffer
variable {b b' : StateBuffer} {s x : GameState} {k t tick last clock : UInt32} {ss : List GameState}

/-- The ticks that states held lead to, each from the tick that the one before it has led to, the first from `last`. -/
inductive Reaches (b : StateBuffer) (last : UInt32) : UInt32 → Prop where
  | first {k : UInt32} {s : GameState} (held : b.held.get? k = some s) (leads : s.chainsFrom last = true) :
      Reaches b last s.toTick
  | further {t k : UInt32} {s : GameState} (reached : Reaches b last t) (held : b.held.get? k = some s)
      (leads : s.chainsFrom t = true) : Reaches b last s.toTick

/-- The state is held at `k`, is full, and no full state is held at a later tick. -/
def IsNewestFull (b : StateBuffer) (k : UInt32) (s : GameState) : Prop :=
  b.held.get? k = some s ∧ s.isFull = true ∧ ∀ {l x}, b.held.get? l = some x → x.isFull = true → l ≤ k

/-- Of the states held that lead on from `tick`, this is the one for the least tick. -/
def IsNearest (b : StateBuffer) (tick : UInt32) (s : GameState) : Prop :=
  b.held.get? s.toTick = some s ∧ s.chainsFrom tick = true ∧
    ∀ {k x}, b.held.get? k = some x → x.chainsFrom tick = true → s.toTick ≤ k

/-- The buffer has gone on to the state it held at tick `t`. What it held for later ticks stays, and nothing else. -/
structure Advanced (b b' : StateBuffer) (t : UInt32) (s : GameState) : Prop where
  taken : b.held.get? t = some s
  last : b'.lastApplied = some s
  stays : ∀ k, b'.held.get? k = if t < k then b.held.get? k else none
  settings : b'.settings = b.settings
  newestOrigin : b'.newestOrigin = b.newestOrigin

/-! ### The order of what is held -/

/-- Each state is held under the tick that it leads to. -/
def Filed (b : StateBuffer) : Prop := ∀ k s, b.held.get? k = some s → s.toTick = k

theorem Sound.isFiled (h : b.Sound) : b.Filed := fun _ _ hs => h.filed hs

/-- The states held, in their order, lead to later and later ticks. -/
theorem Filed.ascending (h : b.Filed) : b.held.values.Pairwise fun p s => p.toTick < s.toTick := by
  rw [SortedMap.values, List.pairwise_map]
  refine b.held.sorted.imp_of_mem fun {d e} hd he hlt => ?_
  rw [h _ _ (SortedMap.get?_eq_some_iff.mpr hd), h _ _ (SortedMap.get?_eq_some_iff.mpr he)]
  exact hlt

theorem Sound.ascending (h : b.Sound) : b.held.values.Pairwise fun p s => p.toTick < s.toTick := h.isFiled.ascending

theorem Sound.held_iff (h : b.Sound) : s ∈ b.held.values ↔ b.held.get? s.toTick = some s := by
  rw [SortedMap.mem_values]
  constructor
  · rintro ⟨k, hk⟩
    rw [h.filed hk]
    exact hk
  · exact fun hs => ⟨_, hs⟩

/-- In a list that goes by an order, the first that meets a condition is the one that no other comes before. -/
theorem find?_eq_some_iff_of_pairwise {r : GameState → GameState → Prop} {p : GameState → Bool}
    (hr : ∀ {x y}, r x y → ¬ r y x) (h : ss.Pairwise r) :
    ss.find? p = some s ↔ s ∈ ss ∧ p s = true ∧ ∀ x ∈ ss, p x = true → ¬ r x s := by
  induction ss with
  | nil => simp
  | cons x ss ih =>
    obtain ⟨hx, hss⟩ := List.pairwise_cons.mp h
    by_cases hp : p x = true
    · rw [List.find?_cons_of_pos hp]
      constructor
      · rintro ⟨⟩
        refine ⟨List.mem_cons_self, hp, fun y hy _ hyx => ?_⟩
        rcases List.mem_cons.mp hy with rfl | hy
        · exact hr hyx hyx
        · exact hr (hx y hy) hyx
      · rintro ⟨hs, -, hfirst⟩
        rcases List.mem_cons.mp hs with rfl | hs
        · rfl
        · exact absurd (hx s hs) (hfirst x List.mem_cons_self hp)
    · rw [List.find?_cons_of_neg hp, ih hss]
      constructor
      · rintro ⟨hs, hps, hfirst⟩
        refine ⟨List.mem_cons_of_mem x hs, hps, fun y hy hpy => ?_⟩
        rcases List.mem_cons.mp hy with rfl | hy
        · exact absurd hpy hp
        · exact hfirst y hy hpy
      · rintro ⟨hs, hps, hfirst⟩
        refine ⟨?_, hps, fun y hy => hfirst y (List.mem_cons_of_mem x hy)⟩
        rcases List.mem_cons.mp hs with rfl | hs
        · exact absurd hps hp
        · exact hs

theorem Sound.forall_held (h : b.Sound) {q : UInt32 → GameState → Prop} :
    (∀ x ∈ b.held.values, q x.toTick x) ↔ ∀ {k x}, b.held.get? k = some x → q k x := by
  refine ⟨fun hall k x hx => ?_, fun hall x hx => hall (h.held_iff.mp hx)⟩
  obtain rfl := h.filed hx
  exact hall x (h.held_iff.mpr hx)

/-- The first state held that meets a condition is the one for the least tick. -/
theorem Sound.find?_values (h : b.Sound) {p : GameState → Bool} : b.held.values.find? p = some s ↔
    b.held.get? s.toTick = some s ∧ p s = true ∧
      ∀ {k x}, b.held.get? k = some x → p x = true → s.toTick ≤ k := by
  rw [find?_eq_some_iff_of_pairwise UInt32.lt_asymm h.ascending, h.held_iff]
  simp only [UInt32.not_lt]
  rw [h.forall_held (q := fun k x => p x = true → s.toTick ≤ k)]

/-- The last state held that meets a condition is the one for the greatest tick. -/
theorem Sound.find?_values_reverse (h : b.Sound) {p : GameState → Bool} :
    b.held.values.reverse.find? p = some s ↔ b.held.get? s.toTick = some s ∧ p s = true ∧
      ∀ {k x}, b.held.get? k = some x → p x = true → k ≤ s.toTick := by
  have hdesc := List.pairwise_reverse.mpr h.ascending
  rw [find?_eq_some_iff_of_pairwise UInt32.lt_asymm hdesc, List.mem_reverse, h.held_iff]
  simp only [UInt32.not_lt, List.mem_reverse]
  rw [h.forall_held (q := fun k x => p x = true → k ≤ s.toTick)]

theorem Filed.ascending_chainFrom (h : b.Filed) (tick : UInt32) :
    (b.chainFrom tick).Pairwise fun p s => p.toTick < s.toTick := h.ascending.sublist (chainIn_sublist _ _)

theorem Sound.ascending_chainFrom (h : b.Sound) (tick : UInt32) :
    (b.chainFrom tick).Pairwise fun p s => p.toTick < s.toTick := h.isFiled.ascending_chainFrom tick

/-- The states up to a tick are the first of them. -/
theorem mem_takeWhile_iff (h : ss.Pairwise fun p s => p.toTick < s.toTick) :
    s ∈ ss.takeWhile (·.toTick ≤ clock) ↔ s ∈ ss ∧ s.toTick ≤ clock := by
  induction ss with
  | nil => simp
  | cons x ss ih =>
    obtain ⟨hx, hss⟩ := List.pairwise_cons.mp h
    by_cases hle : x.toTick ≤ clock
    · rw [List.takeWhile_cons_of_pos (by simpa using hle), List.mem_cons, ih hss, List.mem_cons]
      constructor
      · rintro (rfl | hs)
        · exact ⟨Or.inl rfl, hle⟩
        · exact ⟨Or.inr hs.1, hs.2⟩
      · rintro ⟨rfl | hs, hle'⟩
        · exact Or.inl rfl
        · exact Or.inr ⟨hs, hle'⟩
    · rw [List.takeWhile_cons_of_neg (by simpa using hle)]
      simp only [List.not_mem_nil, List.mem_cons, false_iff, not_and]
      rintro (rfl | hs)
      · exact hle
      · exact fun hle' => hle (UInt32.le_of_lt (UInt32.lt_of_lt_of_le (hx s hs) hle'))

/-! ### The nearest state each time -/

/-- A state that leads on from where the chain begins, or from a state of it, is itself in the chain: if the chain goes
    by a nearer one, it leads on from that too. -/
theorem mem_chainIn (h : ss.Pairwise fun p s => p.toTick < s.toTick) (hs : s ∈ ss)
    (hleads : s.chainsFrom tick = true ∨ ∃ p ∈ chainIn tick ss, s.chainsFrom p.toTick = true) :
    s ∈ chainIn tick ss := by
  induction ss generalizing tick with
  | nil => cases hs
  | cons x ss ih =>
    obtain ⟨hx, hss⟩ := List.pairwise_cons.mp h
    by_cases hchain : x.chainsFrom tick = true
    · rw [chainIn, if_pos hchain] at hleads ⊢
      rcases List.mem_cons.mp hs with rfl | hs
      · exact List.mem_cons_self
      · refine List.mem_cons_of_mem x (ih hss hs ?_)
        rcases hleads with hleads | ⟨p, hp, hleads⟩
        · have hfrom := (GameState.chainsFrom_iff.mp hleads).1
          have hover := (GameState.chainsFrom_iff.mp hchain).2
          exact Or.inl (GameState.chainsFrom_iff.mpr ⟨UInt32.le_of_lt (UInt32.lt_of_le_of_lt hfrom hover), hx s hs⟩)
        · rcases List.mem_cons.mp hp with rfl | hp
          · exact Or.inl hleads
          · exact Or.inr ⟨p, hp, hleads⟩
    · rw [chainIn, if_neg hchain] at hleads ⊢
      rcases List.mem_cons.mp hs with rfl | hs
      · -- What was passed over leads no further than the states behind it.
        rcases hleads with hleads | ⟨p, hp, hleads⟩
        · exact absurd hleads hchain
        · have hback := hx p ((chainIn_sublist tick ss).mem hp)
          exact absurd (GameState.chainsFrom_iff.mp hleads).2 (UInt32.not_lt.mpr (UInt32.le_of_lt hback))
      · exact ih hss hs hleads

theorem reaches_of_follows (h : Follows tick ss) (hheld : ∀ s ∈ ss, ∃ k, b.held.get? k = some s)
    (htick : tick = last ∨ b.Reaches last tick) (hs : s ∈ ss) : b.Reaches last s.toTick := by
  induction ss generalizing tick with
  | nil => cases hs
  | cons x ss ih =>
    obtain ⟨k, hk⟩ := hheld x List.mem_cons_self
    have hx : b.Reaches last x.toTick := by
      rcases htick with rfl | htick
      · exact .first hk h.1
      · exact .further htick hk h.1
    rcases List.mem_cons.mp hs with rfl | hs
    · exact hx
    · exact ih h.2 (fun y hy => hheld y (List.mem_cons_of_mem x hy)) (Or.inr hx) hs

/-- The chain comes to every tick that can be reached, and to no other. -/
theorem Filed.reaches_iff (h : b.Filed) : b.Reaches last t ↔ ∃ s ∈ b.chainFrom last, s.toTick = t := by
  constructor
  · intro hr
    induction hr with
    | first held leads =>
      exact ⟨_, mem_chainIn h.ascending (SortedMap.mem_values.mpr ⟨_, held⟩) (Or.inl leads), rfl⟩
    | further _ held leads ih =>
      obtain ⟨p, hp, rfl⟩ := ih
      exact ⟨_, mem_chainIn h.ascending (SortedMap.mem_values.mpr ⟨_, held⟩) (Or.inr ⟨p, hp, leads⟩), rfl⟩
  · rintro ⟨s, hs, rfl⟩
    exact reaches_of_follows (follows_chainIn last _) (fun x hx => mem_held_of_mem_chainFrom hx) (Or.inl rfl) hs

theorem Sound.reaches_iff (h : b.Sound) : b.Reaches last t ↔ ∃ s ∈ b.chainFrom last, s.toTick = t :=
  h.isFiled.reaches_iff

/-- The states of the chain are those held at the ticks that can be reached. -/
theorem Sound.mem_chainFrom_iff (h : b.Sound) :
    s ∈ b.chainFrom last ↔ b.Reaches last s.toTick ∧ b.held.get? s.toTick = some s := by
  constructor
  · intro hs
    obtain ⟨k, hk⟩ := mem_held_of_mem_chainFrom hs
    exact ⟨h.reaches_iff.mpr ⟨s, hs, rfl⟩, h.filed hk ▸ hk⟩
  · rintro ⟨hr, hs⟩
    obtain ⟨x, hx, htick⟩ := h.reaches_iff.mp hr
    obtain ⟨k, hk⟩ := mem_held_of_mem_chainFrom hx
    obtain rfl := h.filed hk
    rw [htick, hs] at hk
    exact Option.some.inj hk ▸ hx

/-! ### The states that a selection takes -/

theorem Sound.following_eq_some_iff (h : b.Sound) : b.following tick = some s ↔ b.IsNearest tick s :=
  h.find?_values

theorem Sound.isNewestFull_of_head? (h : b.Sound) (hs : b.fullStates.head? = some s) :
    b.IsNewestFull s.toTick s := by
  rw [fullStates, List.head?_filter] at hs
  exact h.find?_values_reverse.mp hs

theorem advanced_apply (hs : b.held.get? t = some s) (ht : s.toTick = t) : Advanced b (b.apply s) t s where
  taken := hs
  last := rfl
  stays k := by rw [← ht]; exact SortedMap.get?_above ..
  settings := rfl
  newestOrigin := rfl

/-- What leads on from the state that is applied is not touched when it is applied. -/
theorem Sound.isNearest_apply (h : b.Sound) : (b.apply s).IsNearest s.toTick x ↔ b.IsNearest s.toTick x := by
  have hstays : ∀ {k y}, y.chainsFrom s.toTick = true →
      ((b.apply s).held.get? k = some y ↔ b.held.get? k = some y) := by
    intro k y hleads
    refine ⟨fun hy => (get?_apply hy).2, fun hy => ?_⟩
    have hlt := (GameState.chainsFrom_iff.mp hleads).2
    rw [h.filed hy] at hlt
    rw [show (b.apply s).held.get? k = _ from SortedMap.get?_above .., if_pos hlt, hy]
  unfold IsNearest
  constructor
  · rintro ⟨hheld, hleads, hleast⟩
    exact ⟨(hstays hleads).mp hheld, hleads, fun hy hleads' => hleast ((hstays hleads').mpr hy) hleads'⟩
  · rintro ⟨hheld, hleads, hleast⟩
    exact ⟨(hstays hleads).mpr hheld, hleads, fun hy hleads' => hleast ((hstays hleads').mp hy) hleads'⟩

/-! ### The cases of a selection -/

/-- A full state waits. -/
def HoldsFull (b : StateBuffer) : Prop := ∃ k s, b.held.get? k = some s ∧ s.isFull = true

/-- The states of the chain from `last` that a client has come to at tick `clock`. -/
def due (b : StateBuffer) (last clock : UInt32) : List GameState := (b.chainFrom last).takeWhile (·.toTick ≤ clock)

/-- The states at the ticks before `t` that can be reached, oldest first. -/
structure IsTrail (b : StateBuffer) (last t : UInt32) (trail : List GameState) : Prop where
  ascending : trail.Pairwise fun p s => p.toTick < s.toTick
  mem_iff : ∀ s, s ∈ trail ↔ b.Reaches last s.toTick ∧ s.toTick < t ∧ b.held.get? s.toTick = some s

theorem Sound.ascending_due (h : b.Sound) (last clock : UInt32) :
    (b.due last clock).Pairwise fun p s => p.toTick < s.toTick :=
  (h.ascending_chainFrom last).sublist (List.takeWhile_sublist _)

theorem Sound.mem_due_iff (h : b.Sound) : s ∈ b.due last clock ↔
    (b.Reaches last s.toTick ∧ b.held.get? s.toTick = some s) ∧ s.toTick ≤ clock := by
  rw [due, mem_takeWhile_iff (h.ascending_chainFrom last), h.mem_chainFrom_iff]

theorem fullStates_eq_nil_iff : b.fullStates = [] ↔ ¬ b.HoldsFull := by
  rw [List.eq_nil_iff_forall_not_mem]
  constructor
  · rintro hnone ⟨k, s, hs, hfull⟩
    exact hnone s (mem_fullStates.mpr ⟨⟨k, hs⟩, hfull⟩)
  · intro hnone s hs
    obtain ⟨⟨k, hk⟩, hfull⟩ := mem_fullStates.mp hs
    exact hnone ⟨k, s, hk, hfull⟩

theorem Sound.select_full (h : b.Sound) (hl : b.lastTick = some last) (hfull : b.HoldsFull) (clock : UInt32) :
    ∃ f s b', b.IsNewestFull f s ∧ Advanced b b' f s ∧ b.select clock = (.chosen s none [], f, b') := by
  cases hs : b.fullStates.head? with
  | none => exact absurd hfull (fullStates_eq_nil_iff.mp (List.head?_eq_none_iff.mp hs))
  | some s =>
    have hnewest := h.isNewestFull_of_head? hs
    refine ⟨s.toTick, s, b.apply s, hnewest, advanced_apply hnewest.1 rfl, ?_⟩
    simp only [select, hl, selectNext, hs, applyFull]

/-- The end of the chain is the last tick that can be reached. -/
theorem Sound.any_getLast?_iff (h : b.Sound) :
    (b.chainFrom last).getLast?.any (clock ≤ ·.toTick) = true ↔ ∃ r, b.Reaches last r ∧ clock ≤ r := by
  have hasc := h.ascending_chainFrom last
  constructor
  · intro hany
    cases hs : (b.chainFrom last).getLast? with
    | none => rw [hs] at hany; cases hany
    | some s =>
      rw [hs] at hany
      exact ⟨s.toTick, h.reaches_iff.mpr ⟨s, List.mem_of_getLast? hs, rfl⟩, of_decide_eq_true hany⟩
  · rintro ⟨r, hr, hle⟩
    obtain ⟨x, hx, rfl⟩ := h.reaches_iff.mp hr
    rcases List.eq_nil_or_concat (b.chainFrom last) with hnil | ⟨front, s, hsplit⟩
    · rw [hnil] at hx
      cases hx
    · rw [List.concat_eq_append] at hsplit
      rw [hsplit] at hx hasc ⊢
      rw [List.getLast?_concat, Option.any_some, decide_eq_true_eq]
      rcases List.mem_append.mp hx with hx | hx
      · have hlt := (List.pairwise_append.mp hasc).2.2 x hx s List.mem_cons_self
        exact UInt32.le_trans hle (UInt32.le_of_lt hlt)
      · exact List.mem_singleton.mp hx ▸ hle

/-- Without a full state, the selection goes by the chain up to the tick of the client, if the chain goes that far. -/
theorem Sound.select_chain (h : b.Sound) (hl : b.lastTick = some last) (hfull : ¬ b.HoldsFull)
    (hend : ∃ r, b.Reaches last r ∧ clock ≤ r) :
    b.select clock = b.applyChain clock (b.due last clock) := by
  simp only [select, hl, selectNext, fullStates_eq_nil_iff.mpr hfull, List.head?_nil, h.any_getLast?_iff.mpr hend,
    if_true, due]

theorem Sound.select_follow (h : b.Sound) (hl : b.lastTick = some last) (hfull : ¬ b.HoldsFull)
    (hend : ∃ r, b.Reaches last r ∧ clock ≤ r) (hdue : ∃ r, b.Reaches last r ∧ r ≤ clock) :
    ∃ t s next catchUp b', IsGreatest {r | b.Reaches last r ∧ r ≤ clock} t ∧ Advanced b b' t s ∧
      (∀ x, next = some x ↔ b.IsNearest t x) ∧ (∀ x ∈ next, b'.held.get? x.toTick = some x) ∧
      b.IsTrail last t catchUp ∧ b.select clock = (.chosen s next catchUp, clock, b') := by
  have hasc := h.ascending_due last clock
  have hmem : ∀ x, x ∈ b.due last clock ↔
      (b.Reaches last x.toTick ∧ b.held.get? x.toTick = some x) ∧ x.toTick ≤ clock := fun x => h.mem_due_iff
  have hselect := h.select_chain hl hfull hend
  rcases List.eq_nil_or_concat (b.due last clock) with hnil | ⟨catchUp, s, hsplit⟩
  · obtain ⟨r, hr, hle⟩ := hdue
    obtain ⟨x, hx, rfl⟩ := h.reaches_iff.mp hr
    have hx' := (hmem x).mpr ⟨h.mem_chainFrom_iff.mp hx, hle⟩
    rw [hnil] at hx'
    cases hx'
  · rw [List.concat_eq_append] at hsplit
    rw [hsplit] at hasc hmem hselect
    obtain ⟨⟨hreach, hheld⟩, hle⟩ := (hmem s).mp (List.mem_append_right _ List.mem_cons_self)
    obtain ⟨hascUp, -, hbefore⟩ := List.pairwise_append.mp hasc
    refine ⟨s.toTick, s, (b.apply s).following s.toTick, catchUp, b.apply s, ⟨⟨hreach, hle⟩, ?_⟩,
      advanced_apply hheld rfl, fun x => ?_, fun x hx => ?_, ⟨hascUp, fun x => ?_⟩, ?_⟩
    · rintro r ⟨hr, hle'⟩
      obtain ⟨x, hx, rfl⟩ := h.reaches_iff.mp hr
      have hx' := (hmem x).mpr ⟨h.mem_chainFrom_iff.mp hx, hle'⟩
      rcases List.mem_append.mp hx' with hx' | hx'
      · exact UInt32.le_of_lt (hbefore x hx' s List.mem_cons_self)
      · exact List.mem_singleton.mp hx' ▸ UInt32.le_refl _
    · rw [(h.apply s).following_eq_some_iff, h.isNearest_apply]
    · exact ((h.apply s).following_eq_some_iff.mp hx).1
    · constructor
      · intro hx
        have hx' := (hmem x).mp (List.mem_append_left _ hx)
        exact ⟨hx'.1.1, hbefore x hx s List.mem_cons_self, hx'.1.2⟩
      · rintro ⟨hr, hlt, hheld'⟩
        have hx' := (hmem x).mpr ⟨⟨hr, hheld'⟩, UInt32.le_trans (UInt32.le_of_lt hlt) hle⟩
        rcases List.mem_append.mp hx' with hx' | hx'
        · exact hx'
        · obtain rfl := List.mem_singleton.mp hx'
          exact absurd hlt (UInt32.lt_irrefl _)
    · rw [hselect, applyChain, List.getLast?_concat, List.dropLast_concat]

theorem Sound.select_early (h : b.Sound) (hl : b.lastTick = some last) (hfull : ¬ b.HoldsFull)
    (hend : ∃ r, b.Reaches last r ∧ clock ≤ r) (hearly : ∀ r, b.Reaches last r → clock < r) :
    b.select clock = (.nothing, clock, b) := by
  have hnil : b.due last clock = [] := by
    refine List.eq_nil_iff_forall_not_mem.mpr fun x hx => ?_
    obtain ⟨⟨hreach, -⟩, hle⟩ := h.mem_due_iff.mp hx
    exact UInt32.not_le.mpr (hearly _ hreach) hle
  rw [h.select_chain hl hfull hend, hnil]
  rfl

theorem Sound.select_starved (h : b.Sound) (hl : b.lastTick = some last) (hfull : ¬ b.HoldsFull)
    (hshort : ∀ r, b.Reaches last r → r < clock) : b.select clock = b.starve last clock := by
  have hany : (b.chainFrom last).getLast?.any (clock ≤ ·.toTick) = false := by
    refine eq_false_of_ne_true fun hany => ?_
    obtain ⟨r, hr, hle⟩ := h.any_getLast?_iff.mp hany
    exact UInt32.not_le.mpr (hshort r hr) hle
  simp only [select, hl, selectNext, fullStates_eq_nil_iff.mpr hfull, List.head?_nil, hany, Bool.false_eq_true,
    if_false]

end StateBuffer

namespace Course
open StateBuffer

/-- What a selection comes to for a client that has applied the ticks up to `last`, whatever has happened before. A
    full state takes over at once, the newest of them. Without one, let R be the ticks that can be reached from `last`.
    If R goes as far as the client's tick, the greatest tick of R up to there is applied, with all of R before it to
    catch up with; if all of R is later, the client waits. If R does not go so far, a client that is past `last` gets
    a placeholder, or goes back to `last`. -/
theorem select_primed (settings : BufferSettings) (ops : List Operation) (last clock : UInt32)
    (hl : (run settings ops).buffer.lastTick = some last) :
    let b := (run settings ops).buffer
    (b.HoldsFull → ∃ f s b', b.IsNewestFull f s ∧ Advanced b b' f s ∧ b.select clock = (.chosen s none [], f, b')) ∧
    (¬ b.HoldsFull →
      ((∃ r, b.Reaches last r ∧ clock ≤ r) → (∃ r, b.Reaches last r ∧ r ≤ clock) →
        ∃ t s next catchUp b', IsGreatest {r | b.Reaches last r ∧ r ≤ clock} t ∧ Advanced b b' t s ∧
          (∀ x, next = some x ↔ b.IsNearest t x) ∧ (∀ x ∈ next, b'.held.get? x.toTick = some x) ∧
          b.IsTrail last t catchUp ∧ b.select clock = (.chosen s next catchUp, clock, b')) ∧
      ((∃ r, b.Reaches last r ∧ clock ≤ r) → (∀ r, b.Reaches last r → clock < r) →
        b.select clock = (.nothing, clock, b)) ∧
      ((∀ r, b.Reaches last r → r < clock) → b.select clock =
        if clock ≤ last then (.nothing, clock, b)
        else if b.settings.extrapolation then (.chosen (.placeholder last clock) none [], clock, b)
        else (.nothing, last, b))) := by
  have h := (sound_run settings ops).buffer
  refine ⟨fun hfull => h.select_full hl hfull clock, fun hfull => ?_⟩
  refine ⟨h.select_follow hl hfull, h.select_early hl hfull, ?_⟩
  exact h.select_starved hl hfull

/-- A full state is applied, and then three deltas come that overlap. -/
def overlapping : List Operation :=
  [.add (.full 1) 0, .select 0, .add (.blank 2 4) 0, .add (.blank 1 2) 0, .add (.blank 1 3) 0]

theorem select_primed_overlapping :
    let b := (run { minSize := 1 } overlapping).buffer
    b.lastTick = some 1 ∧ ¬ b.HoldsFull ∧ b.Reaches 1 2 ∧ b.Reaches 1 4 ∧
      ∃ t s next catchUp b', IsGreatest {r | b.Reaches 1 r ∧ r ≤ 3} t ∧ Advanced b b' t s ∧
        (∀ x, next = some x ↔ b.IsNearest t x) ∧ (∀ x ∈ next, b'.held.get? x.toTick = some x) ∧
        b.IsTrail 1 t catchUp ∧ b.select 3 = (.chosen s next catchUp, 3, b') := by
  intro b
  have hl : b.lastTick = some 1 := by decide +kernel
  have hfull : ¬ b.HoldsFull := fullStates_eq_nil_iff.mp (by decide +kernel)
  have hnear : b.Reaches 1 2 := .first (s := .blank 1 2) (k := 2) (by decide +kernel) rfl
  have hfar : b.Reaches 1 4 := .further (s := .blank 2 4) (k := 4) hnear (by decide +kernel) rfl
  obtain ⟨-, hrest⟩ := select_primed { minSize := 1 } overlapping 1 3 hl
  exact ⟨hl, hfull, hnear, hfar, (hrest hfull).1 ⟨4, hfar, by decide⟩ ⟨2, hnear, by decide⟩⟩

end Course
end StateSync
