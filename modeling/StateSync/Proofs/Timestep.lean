import Mathlib.Algebra.Order.Ring.Nat
import StateSync.Settings
import StateSync.Timestep

/-! The loop that takes ticks until none is due, as it goes tick by tick (`Timestep.Drains`), and how long it goes on.
    The length of a tick is cut to whole nanoseconds, and so it is nothing at more than a billion ticks in a second:
    the loop ends at the other rates and at those alone (`Timestep.drains_run_iff`). There `Timestep.advance` counts
    what the loop takes, in 32 bits. From one frame to the next they are enough, and no time is lost or made, however it
    is split into frames (`Timestep.advances_conserve`). -/

namespace StateSync.Timestep

variable {t t₁ t₂ : Timestep} {rate frame k k₁ k₂ : Nat}

/-! ### One tick -/

@[simp] theorem length_accumulate (t : Timestep) (frame : Nat) : (t.accumulate frame).length = t.length := rfl

theorem length_pos_iff (h : 0 < t.rate) : 0 < t.length ↔ t.rate ≤ second := by
  rw [length, Nat.div_pos_iff]
  exact and_iff_right h

theorem consume?_eq_none_iff : t.consume? = none ↔ t.accumulated < t.length := by
  simp [consume?]

theorem consume?_eq_some_iff :
    t.consume? = some t₁ ↔ t.length ≤ t.accumulated ∧ t₁ = { t with accumulated := t.accumulated - t.length } := by
  simp [consume?, eq_comm]

theorem rate_of_consume? (h : t.consume? = some t₁) : t₁.rate = t.rate := by
  rw [(consume?_eq_some_iff.mp h).2]

theorem length_of_consume? (h : t.consume? = some t₁) : t₁.length = t.length := by
  rw [length, rate_of_consume? h, length]

/-- A tick that takes no time is always due, and taking it changes nothing. -/
theorem consume?_of_length_eq_zero (h : t.length = 0) : t.consume? = some t := by
  rw [consume?_eq_some_iff, h]
  exact ⟨Nat.zero_le _, rfl⟩

theorem due_of_consume? (h : t.consume? = some t₁) (hpos : 0 < t.length) : t.due = t₁.due + 1 := by
  obtain ⟨hle, rfl⟩ := consume?_eq_some_iff.mp h
  exact Nat.div_eq_sub_div hpos hle

/-! ### The loop -/

/-- From one time step to another, `k` ticks are taken one by one, and then none is due. -/
inductive Drains : Timestep → Nat → Timestep → Prop
  | done {t : Timestep} (none : t.consume? = none) : Drains t 0 t
  | next {t t₁ t₂ : Timestep} {k : Nat} (due : t.consume? = some t₁) (rest : Drains t₁ k t₂) : Drains t (k + 1) t₂

/-- What is left when all ticks that are due have been taken. -/
def rest (t : Timestep) : Timestep := { t with accumulated := t.accumulated - t.due * t.length }

theorem due_mul_add_rest (t : Timestep) : t.due * t.length + t.rest.accumulated = t.accumulated :=
  Nat.add_sub_cancel' (Nat.div_mul_le_self _ _)

theorem rest_lt (h : 0 < t.length) : t.rest.accumulated < t.length := by
  have hmod : t.rest.accumulated = t.accumulated % t.length := by
    have hsplit := Nat.mod_add_div t.accumulated t.length
    have hrest := t.due_mul_add_rest
    rw [due, Nat.mul_comm] at hrest
    omega
  exact hmod ▸ Nat.mod_lt _ h

theorem rest_of_consume? (h : t.consume? = some t₁) (hpos : 0 < t.length) : t.rest = t₁.rest := by
  have hdue := due_of_consume? h hpos
  have hlength := length_of_consume? h
  obtain ⟨-, rfl⟩ := consume?_eq_some_iff.mp h
  rw [rest, rest, hdue, hlength, Nat.succ_mul, Nat.add_comm, ← Nat.sub_sub]

/-- The loop comes to an end only where a tick takes time, and then takes all that is due. -/
theorem Drains.eq (h : t.Drains k t₂) : 0 < t.length ∧ k = t.due ∧ t₂ = t.rest := by
  induction h with
  | @done t none =>
    have hlt := consume?_eq_none_iff.mp none
    have hdue : t.due = 0 := Nat.div_eq_of_lt hlt
    refine ⟨Nat.zero_lt_of_lt hlt, hdue.symm, ?_⟩
    rw [rest, hdue, Nat.zero_mul, Nat.sub_zero]
  | @next t t₁ t₂ k due rest ih =>
    obtain ⟨hpos, rfl, rfl⟩ := ih
    rw [length_of_consume? due] at hpos
    exact ⟨hpos, (due_of_consume? due hpos).symm, (rest_of_consume? due hpos).symm⟩

/-- Where a tick takes time, each one that is taken leaves less, and so the loop comes to an end. -/
theorem drains_rest (h : 0 < t.length) : t.Drains t.due t.rest := by
  induction hleft : t.accumulated using Nat.strongRecOn generalizing t with
  | ind left ih =>
    rcases hconsume : t.consume? with _ | t₁
    · have hdone : t.Drains 0 t := .done hconsume
      obtain ⟨-, hdue, hrest⟩ := hdone.eq
      rwa [← hdue, ← hrest]
    · have hpos : 0 < t₁.length := length_of_consume? hconsume ▸ h
      have hless : t₁.accumulated < left := by
        obtain ⟨hle, rfl⟩ := consume?_eq_some_iff.mp hconsume
        show t.accumulated - t.length < left
        omega
      rw [due_of_consume? hconsume h, rest_of_consume? hconsume h]
      exact .next hconsume (ih _ hless hpos rfl)

theorem exists_drains_iff : (∃ k t₂, t.Drains k t₂) ↔ 0 < t.length :=
  ⟨fun ⟨_, _, h⟩ => h.eq.1, fun h => ⟨_, _, drains_rest h⟩⟩

/-! ### Calls in any order -/

/-- What can be done with a time step. To advance it is to add a frame, and then to take ticks. -/
inductive Call where
  | accumulate (frame : Nat)
  | consume
  | reset
  deriving DecidableEq, Repr

def call (t : Timestep) : Call → Timestep
  | .accumulate frame => t.accumulate frame
  | .consume => t.consume?.getD t
  | .reset => t.reset

def run (t : Timestep) (calls : List Call) : Timestep := calls.foldl call t

theorem rate_call (t : Timestep) (c : Call) : (t.call c).rate = t.rate := by
  cases c with
  | accumulate => rfl
  | consume =>
    rcases h : t.consume? with _ | t₁
    · rw [call, h, Option.getD_none]
    · rw [call, h, Option.getD_some, rate_of_consume? h]
  | reset => rfl

theorem rate_run (t : Timestep) (calls : List Call) : (t.run calls).rate = t.rate := by
  induction calls generalizing t with
  | nil => rfl
  | cons c calls ih => exact (ih (t.call c)).trans (rate_call t c)

theorem rate_run_create_pos (rate : Nat) (calls : List Call) : 0 < ((create rate).run calls).rate := by
  rw [rate_run]
  exact Nat.le_max_right rate 1

theorem length_run_create_pos_iff (rate : Nat) (calls : List Call) :
    0 < ((create rate).run calls).length ↔ rate ≤ second := by
  have hmax : max rate 1 ≤ second ↔ rate ≤ second := by rw [Nat.max_le, and_iff_left (by decide)]
  rw [length_pos_iff (rate_run_create_pos rate calls), rate_run]
  exact hmax

/-- The loop over one frame takes fewer ticks than 32 bits count, if less than a tick was left before it. -/
theorem due_accumulate_lt_size (h : t.accumulated < t.length) (frame : Nat) :
    (t.accumulate frame).due < UInt32.size := by
  have hpos : 0 < t.length := Nat.zero_lt_of_lt h
  have hframe : min frame longestFrame ≤ longestFrame * t.length :=
    Nat.le_trans (Nat.min_le_right _ _) (Nat.le_mul_of_pos_right _ hpos)
  have hlimit : (longestFrame + 1) * t.length ≤ UInt32.size * t.length := Nat.mul_le_mul_right _ (by decide)
  have htotal : t.accumulated + min frame longestFrame < UInt32.size * t.length := by
    rw [Nat.succ_mul] at hlimit
    omega
  exact (Nat.div_lt_iff_lt_mul hpos).mpr htotal

theorem advance_eq (t : Timestep) (frame : Nat) :
    t.advance frame = ((t.accumulate frame).due % UInt32.size, (t.accumulate frame).rest) := rfl

/-- If less than a tick was left before, no tick of a frame is lost to the count. -/
theorem advance_eq_of_lt (h : t.accumulated < t.length) (frame : Nat) :
    t.advance frame = ((t.accumulate frame).due, (t.accumulate frame).rest) := by
  rw [advance_eq, Nat.mod_eq_of_lt (due_accumulate_lt_size h frame)]

/-- For each rate, whatever was done before and however long the frame: the loop comes to an end exactly if there are
    no more than a billion ticks in a second. Then there is one number of ticks that it takes and one state in which it
    ends, with less than a tick left. That is where `advance` ends too, and what it gives is the number of ticks as far
    as 32 bits count; if less than a tick was left before, they count all of it. At higher rates each tick that is taken
    leaves all as it is. -/
theorem drains_run_iff (rate : Nat) (calls : List Call) (frame : Nat) :
    let t := (create rate).run calls
    ((∃ k t', (t.accumulate frame).Drains k t') ↔ rate ≤ second) ∧
      (rate ≤ second → ∃ k t', (∀ k₁ t₁, (t.accumulate frame).Drains k₁ t₁ ↔ k₁ = k ∧ t₁ = t') ∧
        t.advance frame = (k % UInt32.size, t') ∧ t'.accumulated < t.length ∧
        (t.accumulated < t.length → k < UInt32.size)) ∧
      (second < rate → t.length = 0 ∧ (t.accumulate frame).consume? = some (t.accumulate frame)) := by
  intro t
  have hlength : 0 < t.length ↔ rate ≤ second := length_run_create_pos_iff rate calls
  refine ⟨?_, fun hrate => ?_, fun hrate => ?_⟩
  · rw [exists_drains_iff, length_accumulate]
    exact hlength
  · have hpos : 0 < (t.accumulate frame).length := hlength.mpr hrate
    refine ⟨_, _, fun k₁ t₁ => ⟨fun h => h.eq.2, ?_⟩, advance_eq t frame, rest_lt hpos, fun h =>
      due_accumulate_lt_size h frame⟩
    rintro ⟨rfl, rfl⟩
    exact drains_rest hpos
  · have hzero : t.length = 0 := Nat.eq_zero_of_not_pos fun hpos => absurd (hlength.mp hpos) (by omega)
    exact ⟨hzero, consume?_of_length_eq_zero hzero⟩

/-- Forty milliseconds at sixty ticks per second are two ticks; at a rate too high the next tick leaves all as it is. -/
theorem drains_run_iff_sixty :
    ((create 60).accumulate 40000000).Drains 2 ⟨60, 6666668⟩ ∧ (create 60).advance 40000000 = (2, ⟨60, 6666668⟩) ∧
      (create 1000000001).length = 0 ∧
      ((create 1000000001).accumulate 7).consume? = some ((create 1000000001).accumulate 7) := by
  obtain ⟨-, hdrains, -⟩ := drains_run_iff 60 [] 40000000
  obtain ⟨-, -, hidle⟩ := drains_run_iff 1000000001 [] 7
  obtain ⟨k, t', hloop, hadvance, -, hfits⟩ := hdrains (by decide)
  have hall : k % UInt32.size = k := Nat.mod_eq_of_lt (hfits (by decide))
  have htwo : (create 60).advance 40000000 = (2, ⟨60, 6666668⟩) := by decide
  obtain ⟨hk, ht'⟩ : 2 = k % UInt32.size ∧ ⟨60, 6666668⟩ = t' := Prod.mk.inj (htwo.symm.trans hadvance)
  exact ⟨(hloop 2 ⟨60, 6666668⟩).mpr ⟨hk.trans hall, ht'⟩, htwo, hidle (by decide)⟩

/-- Eighteen frames of a quarter of a second without a tick are four and a half billion ticks of a nanosecond; the count
    has run over. -/
example : ((create second).run (List.replicate 18 (.accumulate longestFrame))).advance 0 = (205032704, ⟨second, 0⟩) := by
  decide

/-- A rate that the settings admit, at which the loop never ends. -/
theorem drains_billionAndOne :
    ∃ s, Settings.initial.set "net.tickrate" "1000000001" = (.ok (), s) ∧ s.tickRate = 1000000001 ∧
      (create s.tickRate).length = 0 ∧ ¬ ∃ k t', ((create s.tickRate).accumulate 0).Drains k t' := by
  refine ⟨{ Settings.initial with tickRate := 1000000001 }, by decide +kernel, rfl, by decide, ?_⟩
  rw [exists_drains_iff]
  decide

/-! ### Frame after frame -/

/-- Advances by one frame after the other; the ticks of each. -/
def advances (t : Timestep) : List Nat → List Nat × Timestep
  | [] => ([], t)
  | frame :: frames =>
    let (k, t) := t.advance frame
    let (ks, t) := t.advances frames
    (k :: ks, t)

/-- The loop is run to its end for one frame after the other. -/
inductive DrainsAll : Timestep → List Nat → List Nat → Timestep → Prop
  | done {t : Timestep} : DrainsAll t [] [] t
  | next {t t₁ t₂ : Timestep} {frame k : Nat} {frames ks : List Nat} (first : (t.accumulate frame).Drains k t₁)
      (rest : DrainsAll t₁ frames ks t₂) : DrainsAll t (frame :: frames) (k :: ks) t₂

theorem advance_lt (h : t.accumulated < t.length) (frame : Nat) :
    (t.advance frame).2.accumulated < (t.advance frame).2.length :=
  rest_lt (t := t.accumulate frame) (Nat.zero_lt_of_lt h)

theorem drainsAll_advances (h : t.accumulated < t.length) (frames : List Nat) :
    t.DrainsAll frames (t.advances frames).1 (t.advances frames).2 := by
  induction frames generalizing t with
  | nil => exact .done
  | cons frame frames ih =>
    have hfirst : (t.accumulate frame).Drains (t.advance frame).1 (t.advance frame).2 := by
      rw [advance_eq_of_lt h]
      exact drains_rest (Nat.zero_lt_of_lt h)
    exact .next hfirst (ih (advance_lt h frame))

/-- The time that comes in is that of the ticks and what is left. -/
theorem advances_sum (h : t.accumulated < t.length) (frames : List Nat) :
    (t.advances frames).1.sum * t.length + (t.advances frames).2.accumulated =
      t.accumulated + (frames.map (min · longestFrame)).sum := by
  induction frames generalizing t with
  | nil => simp [advances]
  | cons frame frames ih =>
    have hfirst : (t.advance frame).1 * t.length + (t.advance frame).2.accumulated =
        t.accumulated + min frame longestFrame := by
      rw [advance_eq_of_lt h]
      exact (t.accumulate frame).due_mul_add_rest
    have hrest := ih (advance_lt h frame)
    have hlength : (t.advance frame).2.length = t.length := rfl
    rw [hlength] at hrest
    show ((t.advance frame).1 + ((t.advance frame).2.advances frames).1.sum) * t.length +
      ((t.advance frame).2.advances frames).2.accumulated = _
    rw [List.map_cons, List.sum_cons, Nat.add_mul]
    omega

theorem rate_advances (t : Timestep) (frames : List Nat) : (t.advances frames).2.rate = t.rate := by
  induction frames generalizing t with
  | nil => rfl
  | cons frame frames ih => exact ih (t.advance frame).2

theorem eq_of_rate_eq (hrate : t₁.rate = t₂.rate) (hleft : t₁.accumulated = t₂.accumulated) : t₁ = t₂ := by
  cases t₁
  cases t₂
  obtain rfl := hrate
  obtain rfl := hleft
  rfl

theorem advances_lt (h : t.accumulated < t.length) (frames : List Nat) :
    (t.advances frames).2.accumulated < t.length ∧ ∀ k ∈ (t.advances frames).1, k < UInt32.size := by
  induction frames generalizing t with
  | nil => exact ⟨h, nofun⟩
  | cons frame frames ih =>
    obtain ⟨hlast, hcounts⟩ := ih (advance_lt h frame)
    have hcount : (t.advance frame).1 < UInt32.size := Nat.mod_lt _ (by decide)
    exact ⟨hlast, List.forall_mem_cons.mpr ⟨hcount, hcounts⟩⟩

/-- How often a length goes into a time and what is left of it are given by their sum. -/
theorem eq_of_mul_add_eq {k₁ k₂ length left₁ left₂ : Nat} (h : k₁ * length + left₁ = k₂ * length + left₂)
    (h₁ : left₁ < length) (h₂ : left₂ < length) : k₁ = k₂ ∧ left₁ = left₂ := by
  have hquotient : ∀ {k left : Nat}, left < length → (k * length + left) / length = k := fun hlt => by
    rw [Nat.mul_comm, Nat.mul_add_div (Nat.zero_lt_of_lt hlt), Nat.div_eq_of_lt hlt, Nat.add_zero]
  have hk : k₁ = k₂ := by
    calc k₁
      _ = (k₁ * length + left₁) / length := (hquotient h₁).symm
      _ = (k₂ * length + left₂) / length := by rw [h]
      _ = k₂ := hquotient h₂
  exact ⟨hk, Nat.add_left_cancel (hk ▸ h)⟩

theorem reset_run_create (rate : Nat) (calls : List Call) : ((create rate).run calls).reset = create rate := by
  have hrate : ((create rate).run calls).rate = (create rate).rate := rate_run _ _
  show (⟨_, 0⟩ : Timestep) = ⟨_, 0⟩
  rw [hrate]
  rfl

theorem map_min_longestFrame {frames : List Nat} (h : ∀ frame ∈ frames, frame ≤ longestFrame) :
    frames.map (min · longestFrame) = frames := by
  calc frames.map (min · longestFrame)
    _ = frames.map id := List.map_congr_left fun frame hmem => Nat.min_eq_left (h frame hmem)
    _ = frames := List.map_id frames

/-- At each rate up to a billion, from a time step that is fresh or was reset, for frames of any length and
    number: the loop runs to its end for each frame, taking no more ticks than 32 bits count; the ticks and what is left
    make up the time that came in, to the nanosecond; and what is left is less than a tick. So if no frame is too long
    to count, the ticks altogether and what is left depend on no more than the sum of the frames. -/
theorem advances_conserve {rate : Nat} (hrate : rate ≤ second) (calls : List Call) (frames : List Nat) :
    let t := ((create rate).run calls).reset
    let r := t.advances frames
    t.DrainsAll frames r.1 r.2 ∧ (∀ k ∈ r.1, k < UInt32.size) ∧
      r.1.sum * t.length + r.2.accumulated = (frames.map (min · longestFrame)).sum ∧ r.2.accumulated < t.length ∧
      ∀ calls' frames', (∀ frame ∈ frames, frame ≤ longestFrame) → (∀ frame ∈ frames', frame ≤ longestFrame) →
        frames'.sum = frames.sum →
        let r' := ((create rate).run calls').reset.advances frames'
        r'.1.sum = r.1.sum ∧ r'.2 = r.2 := by
  have hlength : 0 < (create rate).length := (length_run_create_pos_iff rate []).mpr hrate
  -- Of the calls before nothing is left.
  suffices hcreate : ∀ frames, let r := (create rate).advances frames
      (create rate).DrainsAll frames r.1 r.2 ∧ (∀ k ∈ r.1, k < UInt32.size) ∧
        r.1.sum * (create rate).length + r.2.accumulated = (frames.map (min · longestFrame)).sum ∧
        r.2.accumulated < (create rate).length by
    simp only [reset_run_create]
    obtain ⟨hloop, hcounts, hsum, hleft⟩ := hcreate frames
    refine ⟨hloop, hcounts, hsum, hleft, fun _ frames' hshort hshort' htotal => ?_⟩
    obtain ⟨-, -, hsum', hleft'⟩ := hcreate frames'
    rw [map_min_longestFrame hshort] at hsum
    rw [map_min_longestFrame hshort', htotal, ← hsum] at hsum'
    obtain ⟨hticks, hrest⟩ := eq_of_mul_add_eq hsum' hleft' hleft
    have hsame : ((create rate).advances frames').2.rate = ((create rate).advances frames).2.rate := by
      rw [rate_advances, rate_advances]
    exact ⟨hticks, eq_of_rate_eq hsame hrest⟩
  intro frames r
  obtain ⟨hleft, hcounts⟩ := advances_lt (t := create rate) hlength frames
  have hsum := advances_sum (t := create rate) hlength frames
  rw [show (create rate).accumulated = 0 from rfl, Nat.zero_add] at hsum
  exact ⟨drainsAll_advances hlength frames, hcounts, hsum, hleft⟩

/-- A hundred milliseconds at sixty ticks per second, in two frames and in three. -/
theorem advances_conserve_sixty :
    let t := create 60
    (t.advances [40000000, 60000000]).1 = [2, 4] ∧
      (t.advances [17000000, 33000000, 50000000]).1.sum = (t.advances [40000000, 60000000]).1.sum ∧
      (t.advances [17000000, 33000000, 50000000]).2 = (t.advances [40000000, 60000000]).2 := by
  have hrate : 60 ≤ second := by decide
  obtain ⟨-, -, -, -, hsplit⟩ := advances_conserve hrate [] [40000000, 60000000]
  exact ⟨by decide, hsplit [] [17000000, 33000000, 50000000] (by decide) (by decide) (by decide)⟩

end StateSync.Timestep
