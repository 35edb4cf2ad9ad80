import StateSync.Proofs.State.Selection

/-! A buffer that has applied nothing yet: which states let it begin (`StateBuffer.Begins`), and that whatever it holds
    or applies is among the states that it was given (`StateBuffer.Within`). -/

namespace StateSync.StateBuffer
variable {b : StateBuffer} {xs : List GameState} {x s : GameState} {k clock : UInt32} {origin : Nat}

/-! ### Taking states in -/

/-- Takes in states in order. -/
def takeIn (b : StateBuffer) (xs : List GameState) (origin : Nat) : StateBuffer :=
  xs.foldl (fun b x => (b.add x origin).1) b

theorem held_takeIn (h : (b.takeIn xs origin).held.get? k = some s) : b.held.get? k = some s ∨ s ∈ xs := by
  induction xs generalizing b with
  | nil => exact Or.inl h
  | cons x xs ih =>
    rcases ih (b := (b.add x origin).1) h with hheld | hmem
    · cases ha : b.accepts x with
      | false =>
        rw [add_of_not_accepts ha] at hheld
        exact Or.inl hheld
      | true =>
        rw [add_of_accepts ha] at hheld
        rcases get?_hold hheld with ⟨-, rfl⟩ | hold
        · exact Or.inr List.mem_cons_self
        · exact Or.inl hold
    · exact Or.inr (List.mem_cons_of_mem x hmem)

/-- The time at which the states came is of no account to what is held. -/
theorem takeIn_origin (b : StateBuffer) (xs : List GameState) (origin origin' : Nat) (newest : Option Nat) :
    ∃ newest', { b with newestOrigin := newest }.takeIn xs origin =
      { b.takeIn xs origin' with newestOrigin := newest' } := by
  induction xs generalizing b newest with
  | nil => exact ⟨newest, rfl⟩
  | cons x xs ih =>
    cases ha : b.accepts x with
    | false =>
      have ha' : accepts { b with newestOrigin := newest } x = false := ha
      rw [takeIn, takeIn, List.foldl_cons, List.foldl_cons, add_of_not_accepts ha, add_of_not_accepts ha']
      exact ih b newest
    | true =>
      have ha' : accepts { b with newestOrigin := newest } x = true := ha
      rw [takeIn, takeIn, List.foldl_cons, List.foldl_cons, add_of_accepts ha, add_of_accepts ha']
      exact ih { b.hold x with newestOrigin := some ((b.newestOrigin.getD origin').max origin') } _

theorem Sound.takeIn (h : b.Sound) (xs : List GameState) (origin : Nat) : (b.takeIn xs origin).Sound := by
  induction xs generalizing b with
  | nil => exact h
  | cons x xs ih => exact ih (h.add x origin)

theorem lastApplied_takeIn (b : StateBuffer) (xs : List GameState) (origin : Nat) :
    (b.takeIn xs origin).lastApplied = b.lastApplied := by
  induction xs generalizing b with
  | nil => rfl
  | cons x xs ih => exact (ih (b.add x origin).1).trans (b.lastApplied_add x origin)

/-! ### The first selection -/

/-- The first selection is going to apply a state. -/
def Begins (b : StateBuffer) : Prop := b.settings.minSize ≤ b.size ∧ b.primer.isSome = true

instance (b : StateBuffer) : Decidable b.Begins := inferInstanceAs (Decidable (_ ∧ _))

theorem begins_takeIn (settings : BufferSettings) (xs : List GameState) (origin origin' : Nat) :
    ((create settings).takeIn xs origin).Begins ↔ ((create settings).takeIn xs origin').Begins := by
  obtain ⟨newest, heq⟩ := takeIn_origin (create settings) xs origin origin' none
  rw [show (create settings).takeIn xs origin = _ from heq]
  rfl

theorem held_of_primer (h : b.primer = some s) : (∃ k, b.held.get? k = some s) ∧ s.isFull = true :=
  mem_fullStates.mp (List.mem_of_find?_eq_some h)

theorem select_of_begins (hnew : b.lastApplied = none) (h : b.Begins) (clock : UInt32) :
    ∃ s, b.primer = some s ∧ b.select clock = b.applyFull s := by
  obtain ⟨hsize, hprimer⟩ := h
  obtain ⟨s, hs⟩ := Option.isSome_iff_exists.mp hprimer
  refine ⟨s, hs, ?_⟩
  rw [select, lastTick, hnew, Option.map_none]
  dsimp only
  rw [selectFirst, if_neg (Nat.not_lt.mpr hsize), hs]

theorem select_of_not_begins (hnew : b.lastApplied = none) (h : ¬ b.Begins) (clock : UInt32) :
    b.select clock = (.nothing, clock, b) := by
  rw [select, lastTick, hnew, Option.map_none]
  dsimp only
  rw [selectFirst]
  split
  · rfl
  · rename_i hsize
    cases hs : b.primer with
    | none => rfl
    | some s => exact absurd ⟨Nat.not_lt.mp hsize, by rw [hs]; rfl⟩ h

/-! ### Where states come from -/

/-- The states that the buffer holds, and the last one that it applied, are among these. -/
structure Within (b : StateBuffer) (xs : List GameState) : Prop where
  sound : b.Sound
  held : ∀ {k x}, b.held.get? k = some x → x ∈ xs
  last : ∀ x, b.lastApplied = some x → x ∈ xs

theorem within_takeIn (settings : BufferSettings) (xs : List GameState) (origin : Nat) :
    ((create settings).takeIn xs origin).Within xs where
  sound := (sound_create settings).takeIn xs origin
  held hk := (held_takeIn hk).resolve_left fun hnew => by cases hnew
  last x hx := by
    rw [lastApplied_takeIn] at hx
    cases hx

theorem Within.apply (h : b.Within xs) (hk : b.held.get? k = some s) : (b.apply s).Within xs where
  sound := h.sound.apply s
  held hx := h.held (get?_apply hx).2
  last x hx := by
    obtain rfl := Option.some.inj hx
    exact h.held hk

theorem Within.selects {r : Selection × UInt32 × StateBuffer} (h : b.Within xs) (hs : Selects b clock r) :
    r.2.2.Within xs := by
  cases hs with
  | wait => exact h
  | rewind _ _ => exact h
  | extrapolate _ _ => exact h
  | full hk _ => exact h.apply hk
  | @follow last skipped s _ hp =>
    obtain ⟨k, hk⟩ := mem_held_of_mem_chainFrom (hp.mem (List.mem_append_right skipped (List.mem_singleton_self s)))
    exact h.apply hk

/-- It begins with a full state only. -/
theorem Begins.full {settings : BufferSettings} (h : ((create settings).takeIn xs origin).Begins) :
    ∃ x ∈ xs, x.isFull = true := by
  obtain ⟨s, hs⟩ := Option.isSome_iff_exists.mp h.2
  obtain ⟨⟨k, hk⟩, hfull⟩ := held_of_primer hs
  exact ⟨s, (within_takeIn settings xs origin).held hk, hfull⟩

end StateSync.StateBuffer
