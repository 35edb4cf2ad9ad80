import Mathlib.Data.Set.Card
import StateSync.Proofs.State.Course

/-! The order in which states arrive. What is held after a number of arrivals is what would be held without a limit, down
    to the greatest ticks (`held_addAll`): a tick that has been let go is below as many others as may be held, and no
    arrival changes that. Without a limit arrivals can be exchanged (`improve_comm`), so their order does not matter
    (`held_addAll_perm`). -/

namespace StateSync

/-- The `n` greatest of some ticks: those with fewer than `n` of them above. -/
def greatestOf (n : Nat) (ticks : Set UInt32) : Set UInt32 :=
  {k | k ∈ ticks ∧ {l | l ∈ ticks ∧ k < l}.ncard < n}

theorem SortedMap.mem_keys_greatest_iff {α : Type} {m : SortedMap α} {n : Nat} {k : UInt32} :
    k ∈ (m.greatest n).keys ↔ k ∈ greatestOf n {k | k ∈ m.keys} := by
  have hset : {l | l ∈ {k | k ∈ m.keys} ∧ k < l} = ((m.above k).keys.toFinset : Set UInt32) := by
    ext l
    simp [mem_keys_above, and_comm]
  rw [mem_keys_greatest, greatestOf, Set.mem_ofPred_eq, hset, Set.ncard_coe_finset,
    List.toFinset_card_of_nodup (nodup_keys _), length_keys]
  rfl

namespace StateBuffer
variable {b : StateBuffer} {m : SortedMap GameState} {s x : GameState} {ss ss' : List GameState}
  {xs : List (GameState × Nat)} {k l : UInt32} {n origin : Nat}

/-- Takes in states in order, each with the time at which it left the server. -/
def addAll (b : StateBuffer) (xs : List (GameState × Nat)) : StateBuffer :=
  xs.foldl (fun b x => (b.add x.1 x.2).1) b

/-- The state is none that a client has made up, leads forward, and leads past what has been applied. -/
def IsUseful (b : StateBuffer) (s : GameState) : Prop :=
  s.extrapolated = false ∧ s.fromTick < s.toTick ∧ ∀ last ∈ b.lastTick, last < s.toTick

instance (b : StateBuffer) (s : GameState) : Decidable (b.IsUseful s) := inferInstanceAs (Decidable (_ ∧ _ ∧ _))

/-- The state is held for tick `k`, or has come for it. -/
def Offered (m : SortedMap GameState) (ss : List GameState) (k : UInt32) (s : GameState) : Prop :=
  m.get? k = some s ∨ s ∈ ss ∧ s.toTick = k

/-- Of the states held or come for tick `k` this is the one to hold: a full one if there is one, and the one held from
    the first unless it is a delta that gives way to a full state. -/
structure Prevails (m : SortedMap GameState) (ss : List GameState) (k : UInt32) (s : GameState) : Prop where
  offered : Offered m ss k s
  full : ∀ x, Offered m ss k x → x.isFull = true → s.isFull = true
  held : ∀ x, m.get? k = some x → x = s ∨ x.isFull = false ∧ s.isFull = true

/-! ### Arrivals without a limit -/

/-- Puts a state under its tick, unless one is there that it does not improve on. -/
def improve (m : SortedMap GameState) (s : GameState) : SortedMap GameState :=
  if (m.get? s.toTick).any fun old => old.isFull || !s.isFull then m else m.insert s.toTick s

/-- What is held for a tick once a state has come for it. -/
def better (old : Option GameState) (s : GameState) : GameState :=
  match old with
  | some x => if x.isFull || !s.isFull then x else s
  | none => s

theorem get?_improve (m : SortedMap GameState) (s : GameState) (k : UInt32) :
    (improve m s).get? k = if s.toTick = k then some (better (m.get? k) s) else m.get? k := by
  unfold improve
  by_cases hk : s.toTick = k
  · subst hk
    rw [if_pos rfl]
    cases hold : m.get? s.toTick with
    | none => simp [SortedMap.get?_insert, better]
    | some x => by_cases hx : (x.isFull || !s.isFull) = true <;> simp [hx, hold, SortedMap.get?_insert, better]
  · rw [if_neg hk]
    split
    · rfl
    · rw [SortedMap.get?_insert, if_neg hk]

theorem mem_keys_improve : k ∈ (improve m s).keys ↔ s.toTick = k ∨ k ∈ m.keys := by
  rw [SortedMap.mem_keys, SortedMap.mem_keys, get?_improve]
  by_cases hk : s.toTick = k <;> simp [hk]

theorem better_comm (old : Option GameState) (h : s.isFull = x.isFull → s = x) :
    better (some (better old s)) x = better (some (better old x)) s := by
  -- A full state makes up for a delta, whichever of them comes first.
  have hone : ∀ {s x : GameState}, s.isFull = true → x.isFull = false →
      better (some (better old s)) x = better (some (better old x)) s := by
    intro s x hs hx
    cases old with
    | none => simp [better, hs, hx]
    | some y => cases hy : y.isFull <;> simp [better, hs, hx, hy]
  cases hs : s.isFull with
  | true =>
    cases hx : x.isFull with
    | true => rw [h (hs.trans hx.symm)]
    | false => exact hone hs hx
  | false =>
    cases hx : x.isFull with
    | true => exact (hone hx hs).symm
    | false => rw [h (hs.trans hx.symm)]

/-- Two states can come in either order, unless they are different ones of a kind for one tick. -/
theorem improve_comm (m : SortedMap GameState) (h : s.toTick = x.toTick → s.isFull = x.isFull → s = x) :
    improve (improve m s) x = improve (improve m x) s := by
  refine SortedMap.ext_get? fun k => ?_
  simp only [get?_improve]
  by_cases hs : s.toTick = k
  · by_cases hx : x.toTick = k
    · simp only [hs, hx, if_true, better_comm (m.get? k) (h (hs.trans hx.symm))]
    · simp only [hs, hx, if_true, if_false]
  · simp only [hs, if_false]

/-- Puts states under their ticks in the order in which they come. -/
def gather (m : SortedMap GameState) (ss : List GameState) : SortedMap GameState := ss.foldl improve m

theorem gather_perm (hperm : ss.Perm ss')
    (hsame : ∀ s ∈ ss, ∀ x ∈ ss, s.toTick = x.toTick → s.isFull = x.isFull → s = x) :
    gather m ss = gather m ss' :=
  hperm.foldl_eq' (fun s hs x hx m => improve_comm m (hsame s hs x hx)) m

theorem gather_cons (m : SortedMap GameState) (s : GameState) (ss : List GameState) :
    gather m (s :: ss) = gather (improve m s) ss := rfl

theorem mem_keys_gather : k ∈ (gather m ss).keys ↔ ∃ s, Offered m ss k s := by
  have hticks : k ∈ (gather m ss).keys ↔ k ∈ m.keys ∨ ∃ s ∈ ss, s.toTick = k := by
    induction ss generalizing m with
    | nil => simp [gather]
    | cons x ss ih => rw [gather_cons, ih, mem_keys_improve, List.exists_mem_cons_iff, or_assoc, or_left_comm]
  rw [hticks, SortedMap.mem_keys, ← exists_or]
  rfl

/-- Nothing changes at a tick if the state is not for it or does not improve on what is held. Otherwise the state is
    held from then on, and what it takes the place of was a delta and the state is full. -/
theorem get?_improve_cases (m : SortedMap GameState) (x : GameState) (k : UInt32) :
    ((improve m x).get? k = m.get? k ∧ (x.toTick = k → ∃ y, m.get? k = some y ∧ (x.isFull = true → y.isFull = true))) ∨
    (x.toTick = k ∧ (improve m x).get? k = some x ∧ ∀ y, m.get? k = some y → y.isFull = false ∧ x.isFull = true) := by
  rw [get?_improve]
  by_cases hk : x.toTick = k
  · rw [if_pos hk]
    cases hold : m.get? k with
    | none => exact Or.inr ⟨hk, rfl, nofun⟩
    | some y => cases hx : x.isFull <;> cases hy : y.isFull <;> simp [better, hk, hx, hy]
  · rw [if_neg hk]
    exact Or.inl ⟨rfl, fun h => absurd h hk⟩

theorem prevails_of_get?_gather (h : (gather m ss).get? k = some s) : Prevails m ss k s := by
  induction ss generalizing m with
  | nil =>
    have hsame : ∀ x, m.get? k = some x → x = s := fun x hx => Option.some.inj (hx.symm.trans h)
    refine ⟨Or.inl h, fun x hx hfull => ?_, fun x hx => Or.inl (hsame x hx)⟩
    rcases hx with hx | ⟨hx, -⟩
    · exact hsame x hx ▸ hfull
    · cases hx
  | cons x ss ih =>
    have hp := ih h
    rcases get?_improve_cases m x k with ⟨hstays, hno⟩ | ⟨hk, hnew, hold⟩
    · refine ⟨?_, fun y hy hfull => ?_, fun y hy => hp.held y (hstays.trans hy)⟩
      · rcases hp.offered with hs | ⟨hs, htick⟩
        · exact Or.inl (hstays.symm.trans hs)
        · exact Or.inr ⟨List.mem_cons_of_mem x hs, htick⟩
      · rcases hy with hy | ⟨hy, htick⟩
        · exact hp.full y (Or.inl (hstays.trans hy)) hfull
        · rcases List.mem_cons.mp hy with rfl | hy
          · obtain ⟨z, hz, hzfull⟩ := hno htick
            exact hp.full z (Or.inl (hstays.trans hz)) (hzfull hfull)
          · exact hp.full y (Or.inr ⟨hy, htick⟩) hfull
    · refine ⟨?_, fun y hy hfull => ?_, fun y hy => Or.inr ⟨(hold y hy).1, ?_⟩⟩
      · rcases hp.offered with hs | ⟨hs, htick⟩
        · obtain rfl := Option.some.inj (hnew.symm.trans hs)
          exact Or.inr ⟨List.mem_cons_self, hk⟩
        · exact Or.inr ⟨List.mem_cons_of_mem x hs, htick⟩
      · rcases hy with hy | ⟨hy, htick⟩
        · exact hp.full x (Or.inl hnew) (hold y hy).2
        · rcases List.mem_cons.mp hy with rfl | hy
          · exact hp.full y (Or.inl hnew) hfull
          · exact hp.full y (Or.inr ⟨hy, htick⟩) hfull
      · exact hp.full x (Or.inl hnew) (hold y hy).2

/-! ### The limit -/

theorem greatest_improve (m : SortedMap GameState) (s : GameState) (n : Nat) :
    (improve (m.greatest n) s).greatest n = (improve m s).greatest n := by
  have hkept : ∀ l ∈ (m.greatest n).keys, l ∈ m.keys := fun l hl => (SortedMap.mem_keys_greatest.mp hl).1
  have hrank : ∀ k, (improve (m.greatest n) s).rank k < n ↔ (improve m s).rank k < n := by
    intro k
    constructor
    · intro h
      have hold : m.rank k < n := by
        refine SortedMap.rank_greatest_lt_iff.mp (Nat.lt_of_le_of_lt (SortedMap.rank_le_of_keys fun l hl _ => ?_) h)
        exact mem_keys_improve.mpr (Or.inr hl)
      -- So nothing above `k` has been let go.
      refine Nat.lt_of_le_of_lt (SortedMap.rank_le_of_keys fun l hl hlt => ?_) h
      refine mem_keys_improve.mpr ((mem_keys_improve.mp hl).imp_right fun hl => ?_)
      exact SortedMap.mem_keys_greatest.mpr ⟨hl, Nat.lt_of_le_of_lt (m.rank_anti (UInt32.le_of_lt hlt)) hold⟩
    · intro h
      refine Nat.lt_of_le_of_lt (SortedMap.rank_le_of_keys fun l hl _ => ?_) h
      exact mem_keys_improve.mpr ((mem_keys_improve.mp hl).imp_right (hkept l))
  refine SortedMap.ext_get? fun k => ?_
  rw [SortedMap.get?_greatest, SortedMap.get?_greatest]
  by_cases hk : (improve m s).rank k < n
  · have hold : m.rank k < n :=
      Nat.lt_of_le_of_lt (SortedMap.rank_le_of_keys fun l hl _ => mem_keys_improve.mpr (Or.inr hl)) hk
    rw [if_pos hk, if_pos ((hrank k).mpr hk), get?_improve, get?_improve, SortedMap.get?_greatest, if_pos hold]
  · rw [if_neg hk, if_neg (mt (hrank k).mp hk)]

theorem accepts_iff : b.accepts s = true ↔ b.IsUseful s ∧ b.isSuperseded s = false := by
  cases hl : b.lastTick <;> simp [accepts, isWellFormed, isLate, IsUseful, hl, and_assoc]

theorem isUseful_add (x : GameState) (origin : Nat) : (b.add x origin).1.IsUseful s ↔ b.IsUseful s := by
  rw [IsUseful, IsUseful, lastTick, lastTick, lastApplied_add]

/-- One arrival, if what is held are the greatest ticks of `m`. -/
theorem held_add (h : b.held = m.greatest b.settings.maxSize) (s : GameState) (origin : Nat) :
    (b.add s origin).1.held = (if b.IsUseful s then improve m s else m).greatest b.settings.maxSize := by
  by_cases hu : b.IsUseful s
  · rw [if_pos hu, ← greatest_improve, ← h]
    cases hs : b.isSuperseded s with
    | true =>
      have hno : b.accepts s = false := eq_false_of_ne_true fun ha => by simp [(accepts_iff.mp ha).2] at hs
      have hsame : improve b.held s = b.held := if_pos hs
      have hsize : b.held.size ≤ b.settings.maxSize := h ▸ SortedMap.size_greatest_le m _
      rw [add_of_not_accepts hno, hsame, SortedMap.greatest_of_size_le hsize]
    | false =>
      have hnew : improve b.held s = b.held.insert s.toTick s := if_neg (Bool.eq_false_iff.mp hs)
      rw [add_of_accepts (accepts_iff.mpr ⟨hu, hs⟩), hnew]
      rfl
  · have hno : b.accepts s = false := eq_false_of_ne_true fun ha => hu (accepts_iff.mp ha).1
    rw [if_neg hu, add_of_not_accepts hno, h]

/-- Any number of arrivals. -/
theorem held_addAll (h : b.held = m.greatest b.settings.maxSize) (xs : List (GameState × Nat)) :
    (b.addAll xs).held = (gather m ((xs.map (·.1)).filter (b.IsUseful ·))).greatest b.settings.maxSize := by
  induction xs generalizing b m with
  | nil => exact h
  | cons x xs ih =>
    have hadd := held_add h x.1 x.2
    rw [← settings_add b x.1 x.2] at hadd
    have hxs := ih hadd
    simp only [isUseful_add, settings_add] at hxs
    refine hxs.trans ?_
    by_cases hu : b.IsUseful x.1
    · rw [if_pos hu, List.map_cons, List.filter_cons_of_pos (by simpa using hu), gather_cons]
    · rw [if_neg hu, List.map_cons, List.filter_cons_of_neg (by simpa using hu)]

end StateBuffer

namespace Course
open StateBuffer

/-- Any two orders in which the same states arrive leave the same states held, whenever each of them has left the server,
    if no two states are different ones of a kind for one tick. Of the ticks that a state was held for or a useful one has
    come for, as many of the greatest are held as may be, each with the state that prevails at it. -/
theorem held_addAll_perm (settings : BufferSettings) (ops : List Operation) (xs ys : List (GameState × Nat))
    (hperm : (xs.map (·.1)).Perm (ys.map (·.1)))
    (hsame : ∀ s ∈ xs.map (·.1), ∀ x ∈ xs.map (·.1), s.toTick = x.toTick → s.isFull = x.isFull → s = x) :
    let b := (run settings ops).buffer
    let useful := (xs.map (·.1)).filter (b.IsUseful ·)
    (b.addAll xs).held = (b.addAll ys).held ∧
    (∀ k, (∃ s, (b.addAll xs).held.get? k = some s) ↔
      k ∈ greatestOf b.settings.maxSize {k | ∃ s, Offered b.held useful k s}) ∧
    ∀ k s, (b.addAll xs).held.get? k = some s → Prevails b.held useful k s := by
  intro b useful
  have hsize : b.size ≤ b.settings.maxSize := (sound_run settings ops).buffer.bounded
  have hheld : b.held = b.held.greatest b.settings.maxSize := (SortedMap.greatest_of_size_le hsize).symm
  have hticks : {k | k ∈ (gather b.held useful).keys} = {k | ∃ s, Offered b.held useful k s} :=
    Set.ext fun k => mem_keys_gather
  refine ⟨?_, fun k => ?_, fun k s hs => ?_⟩
  · rw [held_addAll hheld xs, held_addAll hheld ys]
    refine congrArg (SortedMap.greatest · _) (gather_perm (hperm.filter _) fun s hs x hx => ?_)
    exact hsame s (List.mem_of_mem_filter hs) x (List.mem_of_mem_filter hx)
  · rw [held_addAll hheld xs, ← SortedMap.mem_keys, SortedMap.mem_keys_greatest_iff, hticks]
  · rw [held_addAll hheld xs] at hs
    exact prevails_of_get?_gather (SortedMap.get?_of_greatest hs)

/-- The states that come to a buffer of two: one that is soon let go and offered again, and a delta and a full state for
    one tick. -/
def crowd : List (GameState × Nat) := [(.blank 1 2, 0), (.blank 3 4, 5), (.full 4, 7), (.blank 4 5, 1), (.blank 1 2, 9)]

theorem held_addAll_perm_crowd :
    let b := (run { maxSize := 2 } [.add (.blank 2 3) 0]).buffer
    let useful := (crowd.map (·.1)).filter (b.IsUseful ·)
    (crowd.map (·.1)).Perm (crowd.reverse.map (·.1)) ∧
    (∀ s ∈ crowd.map (·.1), ∀ x ∈ crowd.map (·.1), s.toTick = x.toTick → s.isFull = x.isFull → s = x) ∧
    (b.addAll crowd).held.values = [.full 4, .blank 4 5] ∧
    (b.addAll crowd).held = (b.addAll crowd.reverse).held ∧
    (∀ k, (∃ s, (b.addAll crowd).held.get? k = some s) ↔
      k ∈ greatestOf b.settings.maxSize {k | ∃ s, Offered b.held useful k s}) ∧
    ∀ k s, (b.addAll crowd).held.get? k = some s → Prevails b.held useful k s := by
  intro b useful
  have hperm : (crowd.map (·.1)).Perm (crowd.reverse.map (·.1)) := crowd.reverse_perm.symm.map _
  have hsame : ∀ s ∈ crowd.map (·.1), ∀ x ∈ crowd.map (·.1), s.toTick = x.toTick → s.isFull = x.isFull → s = x := by
    decide
  exact ⟨hperm, hsame, by decide +kernel, held_addAll_perm { maxSize := 2 } [.add (.blank 2 3) 0] crowd crowd.reverse
    hperm hsame⟩

end Course
end StateSync
