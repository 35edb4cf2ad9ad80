import StateSync.Proofs.Demo.Lull

/-! The clock of a player. A tick moves it on by one, from where the selection has left it. Only a full state sets it; all
    else leaves it alone or lets it go back (`StateBuffer.clock_of_selects`). So it cannot run over as long as there is room
    for the ticks to come after the greatest full state, and otherwise it can (`runsOver_iff`). -/

namespace StateSync

namespace StateBuffer
variable {b : StateBuffer} {clock k : UInt32} {x : GameState} {r : Selection × UInt32 × StateBuffer}

theorem held_of_selects (h : Selects b clock r) (hx : r.2.2.held.get? k = some x) : b.held.get? k = some x := by
  cases h with
  | wait => exact hx
  | rewind _ _ => exact hx
  | extrapolate _ _ => exact hx
  | full _ _ => exact (get?_apply hx).2
  | follow _ _ => exact (get?_apply hx).2

/-- A selection sets the clock to the tick of a full state that was held, or lets it go on from where it is at most. -/
theorem clock_of_selects (h : Selects b clock r) :
    r.2.1 ≤ clock ∨ ∃ k s, b.held.get? k = some s ∧ s.isFull = true ∧ r.2.1 = s.toTick := by
  cases h with
  | wait => exact Or.inl (UInt32.le_refl _)
  | rewind _ hlt => exact Or.inl (UInt32.le_of_lt hlt)
  | extrapolate _ _ => exact Or.inl (UInt32.le_refl _)
  | full hk hfull => exact Or.inr ⟨_, _, hk, hfull, rfl⟩
  | follow _ _ => exact Or.inl (UInt32.le_refl _)

/-- Without states there is nothing to set the clock to, and placeholders spare it the way back. -/
theorem select_of_empty (hheld : b.held = SortedMap.empty) (hextrapolation : b.settings.extrapolation = true)
    (clock : UInt32) : (b.select clock).2 = (clock, b) := by
  have hvalues : b.held.values = [] := by rw [hheld]; rfl
  have hfull : b.fullStates = [] := by rw [fullStates, hvalues]; rfl
  have hchain : ∀ last, b.chainFrom last = [] := fun last => by rw [chainFrom, hvalues]; rfl
  rw [select]
  split
  · rw [selectFirst]
    split
    · rfl
    · rw [primer, hfull]
      rfl
  · rename_i last _
    rw [selectNext, hfull]
    dsimp only [List.head?_nil]
    rw [hchain, List.getLast?_nil, Option.any_none, if_neg Bool.false_ne_true, starve, if_pos hextrapolation]
    split <;> rfl

/-- A new buffer that has been given one state. -/
def alone (settings : BufferSettings) (s : GameState) (origin : Nat) : StateBuffer :=
  ⟨settings, ⟨[(s.toTick, s)], List.pairwise_singleton _ _⟩, none, some origin⟩

section
variable {settings : BufferSettings} {s : GameState} {origin : Nat}

theorem takeIn_alone (hroom : 1 ≤ settings.maxSize) (hs : isWellFormed s = true) (origin : Nat) :
    (create settings).takeIn [s] origin = alone settings s origin := by
  have haccepts : (create settings).accepts s = true := by
    simp [accepts, hs, isLate, lastTick, isSuperseded, create]
  have hdrop : 1 - settings.maxSize = 0 := by omega
  rw [takeIn, List.foldl_cons, List.foldl_nil, add_of_accepts haccepts, alone, StateBuffer.mk.injEq,
    SortedMap.mk.injEq]
  refine ⟨rfl, ?_, rfl, congrArg some (Nat.max_self origin)⟩
  show List.drop (1 - settings.maxSize) [(s.toTick, s)] = _
  rw [hdrop, List.drop_zero]

/-- A full state is applied at once if it need not wait for others. -/
theorem select_alone (hleast : settings.minSize ≤ 1) (hfull : s.isFull = true) (clock : UInt32) :
    (alone settings s origin).select clock = (alone settings s origin).applyFull s := by
  have hfulls : (alone settings s origin).fullStates = [s] := List.filter_cons_of_pos hfull
  have hprimer : (alone settings s origin).primer = some s := by
    rw [primer, hfulls]
    exact List.find?_cons_of_pos (decide_eq_true (Nat.le_trans hleast (Nat.le_add_right _ _)))
  have hsize : ¬ (alone settings s origin).size < settings.minSize := Nat.not_lt.mpr hleast
  rw [select, show (alone settings s origin).lastTick = none from rfl]
  dsimp only
  rw [selectFirst, hprimer]
  exact if_neg hsize

theorem held_applyFull_alone : ((alone settings s origin).applyFull s).2.2.held = SortedMap.empty := by
  have hnone : [(s.toTick, s)].filter (fun e => decide (s.toTick < e.1)) = [] :=
    List.filter_cons_of_neg (by simp)
  rw [applyFull, apply, SortedMap.above, SortedMap.filterKeys, SortedMap.empty, SortedMap.mk.injEq]
  exact hnone

end

end StateBuffer

namespace Player
variable {p : Player} {n : Network} {top count : Nat}

/-! ### Ticks -/

/-- The clock as the selection leaves it, before the tick moves it on. -/
def reading (p : Player) (n : Network) : UInt32 := ((p.fed n).buffer.select (p.fed n).tick).2.1

/-- The tick moves the clock on from the last number there is. -/
def Overruns (p : Player) (n : Network) : Prop := (p.reading n).toNat + 1 = UInt32.size

instance (p : Player) (n : Network) : Decidable (p.Overruns n) := inferInstanceAs (Decidable (_ = _))

theorem tick_runTick (p : Player) (n : Network) : (p.runTick n).1.tick = p.reading n + 1 := by
  unfold runTick carryOut reading fed
  dsimp only
  split
  · rfl
  · split <;> rfl

theorem toNat_tick_runTick (h : (p.reading n).toNat + 1 < UInt32.size) :
    (p.runTick n).1.tick.toNat = (p.reading n).toNat + 1 := by
  have hone : (1 : UInt32).toNat = 1 := rfl
  rw [tick_runTick, UInt32.toNat_add, hone]
  exact Nat.mod_eq_of_lt h

/-! ### While there is room -/

/-- The full states that are there for the player, or that its buffer holds, lead to `top` at most, and the clock is at
    most `count` ahead of that. -/
structure Timely (p : Player) (top count : Nat) : Prop where
  received : ∀ x ∈ p.manager.received, x.2.isFull = true → x.2.toTick.toNat ≤ top
  held : ∀ {k s}, p.buffer.held.get? k = some s → s.isFull = true → s.toTick.toNat ≤ top
  clock : p.tick.toNat ≤ top + count

theorem Timely.held_fed (h : p.Timely top count) (n : Network) {k : UInt32} {s : GameState}
    (hs : (p.fed n).buffer.held.get? k = some s) (hfull : s.isFull = true) : s.toTick.toNat ≤ top := by
  rw [buffer_fed] at hs
  rcases StateBuffer.held_takeIn hs with hheld | hreceived
  · exact h.held hheld hfull
  · obtain ⟨x, hx, rfl⟩ := List.mem_map.mp hreceived
    exact h.received x hx hfull

theorem Timely.reading_le (h : p.Timely top count) (n : Network) : (p.reading n).toNat ≤ top + count := by
  rcases StateBuffer.clock_of_selects (StateBuffer.select_selects (p.fed n).buffer (p.fed n).tick) with
    hle | ⟨k, s, hs, hfull, heq⟩
  · exact Nat.le_trans (UInt32.le_iff_toNat_le.mp hle) h.clock
  · rw [reading, heq]
    exact Nat.le_trans (h.held_fed n hs hfull) (Nat.le_add_right _ _)

theorem Timely.not_overruns (h : p.Timely top count) (n : Network) (hroom : top + count + 1 < UInt32.size) :
    ¬ p.Overruns n := by
  have hle := h.reading_le n
  unfold Overruns
  omega

theorem Timely.runTick (h : p.Timely top count) (n : Network) (hroom : top + count + 1 < UInt32.size) :
    (p.runTick n).1.Timely top (count + 1) where
  received x hx := by
    rw [manager_runTick] at hx
    cases hx
  held hs hfull := by
    rw [buffer_runTick] at hs
    exact h.held_fed n (StateBuffer.held_of_selects (StateBuffer.select_selects _ _) hs) hfull
  clock := by
    have hle := h.reading_le n
    rw [toNat_tick_runTick (by omega)]
    omega

/-- What else happens leaves the clock alone. -/
theorem Timely.beat (h : p.Timely top count) {b : Beat} (hb : b.isTick = false)
    (hreceived : ∀ s ∈ b.received, s.isFull = true → s.toTick.toNat ≤ top) : (p.beat b).Timely top count := by
  cases b with
  | receive m => exact ⟨fun x hx => hreceived x.2 (List.mem_map_of_mem hx), h.held, h.clock⟩
  | lose => exact ⟨h.received, fun hs => (by cases hs), h.clock⟩
  | await t => exact ⟨h.received, h.held, h.clock⟩
  | tick n => cases hb

theorem Timely.beats (h : p.Timely top count) {schedule : List Beat}
    (hreceived : ∀ b ∈ schedule, ∀ s ∈ b.received, s.isFull = true → s.toTick.toNat ≤ top)
    (hroom : top + count + schedule.countP Beat.isTick < UInt32.size) :
    (p.beats schedule).Timely top (count + schedule.countP Beat.isTick) := by
  induction schedule generalizing p count with
  | nil => exact h
  | cons b schedule ih =>
    obtain ⟨hb, hschedule⟩ := List.forall_mem_cons.mp hreceived
    cases hkind : b.isTick with
    | false =>
      rw [List.countP_cons_of_neg (by rw [hkind]; exact Bool.false_ne_true)] at hroom ⊢
      exact ih (h.beat hkind hb) hschedule hroom
    | true =>
      obtain ⟨n, rfl⟩ := Beat.exists_of_isTick hkind
      rw [List.countP_cons_of_pos hkind] at hroom ⊢
      rw [Nat.add_comm _ 1, ← Nat.add_assoc]
      exact ih (h.runTick n (by omega)) hschedule (by omega)

/-- A player begins without any states, and with its clock at zero. -/
theorem timely_connect {n' : Network} {remote : Address} {username : String} {settings : Settings}
    (h : connect n remote username settings = (.ok p, n')) (top : Nat) : p.Timely top 0 := by
  obtain ⟨addr, peer, -, rfl⟩ := connect_eq_ok h
  exact ⟨fun x hx => (by cases hx), fun hs => (by cases hs), Nat.zero_le _⟩

/-! ### When there is none -/

/-- No state is there for the player, and its buffer has none and makes do with placeholders. -/
structure Coasts (p : Player) : Prop where
  received : p.manager.received = []
  held : p.buffer.held = SortedMap.empty
  extrapolation : p.buffer.settings.extrapolation = true

namespace Coasts

theorem select (h : p.Coasts) (n : Network) : ((p.fed n).buffer.select (p.fed n).tick).2 = (p.tick, p.buffer) := by
  have hfed : (p.fed n).buffer = p.buffer := by
    rw [buffer_fed, h.received]
    rfl
  rw [hfed]
  exact StateBuffer.select_of_empty h.held h.extrapolation _

theorem reading (h : p.Coasts) (n : Network) : p.reading n = p.tick := congrArg Prod.fst (h.select n)

theorem runTick (h : p.Coasts) (n : Network) : (p.runTick n).1.Coasts := by
  have hbuffer : (p.runTick n).1.buffer = p.buffer := (p.buffer_runTick n).trans (congrArg Prod.snd (h.select n))
  refine ⟨?_, hbuffer ▸ h.held, hbuffer ▸ h.extrapolation⟩
  rw [manager_runTick]
  rfl

end Coasts

/-- A new player that applies the first full state at once, and makes do with placeholders from then on. -/
structure Hasty (p : Player) (settings : BufferSettings) : Prop where
  least : settings.minSize ≤ 1
  room : 1 ≤ settings.maxSize
  extrapolation : settings.extrapolation = true
  buffer : p.buffer = .create settings
  clock : p.tick = 0

namespace Hasty
variable {settings : BufferSettings} {ch : Channel} {tick : UInt32}

/-- Its first tick sets the clock to the full state that has come in, if that leads anywhere, and keeps no state. -/
theorem select (h : p.Hasty settings) (hreceived : p.manager.received = [(ch, .full tick)]) (n : Network) :
    ((p.fed n).buffer.select p.tick).2.1 = tick ∧ ((p.fed n).buffer.select p.tick).2.2.held = SortedMap.empty ∧
      ((p.fed n).buffer.select p.tick).2.2.settings = settings := by
  have hfed := p.buffer_fed n
  rw [h.buffer, hreceived, List.map_singleton] at hfed
  by_cases htick : 0 < tick
  · have hwell : StateBuffer.isWellFormed (.full tick) = true := StateBuffer.isWellFormed_iff.mpr ⟨rfl, htick⟩
    rw [hfed, StateBuffer.takeIn_alone h.room hwell, StateBuffer.select_alone h.least rfl]
    exact ⟨rfl, StateBuffer.held_applyFull_alone, rfl⟩
  · -- A full state of tick zero is dropped, and the clock stands at zero as it is.
    have hzero : tick = 0 := by
      rw [UInt32.lt_iff_toNat_lt] at htick
      exact UInt32.toNat_inj.mp (Nat.eq_zero_of_not_pos htick)
    have hrefused : (StateBuffer.create settings).accepts (.full tick) = false := by rw [hzero]; rfl
    have hsame : (p.fed n).buffer = .create settings := by
      rw [hfed, StateBuffer.takeIn, List.foldl_cons, List.foldl_nil, StateBuffer.add_of_not_accepts hrefused]
    rw [hsame, StateBuffer.select_of_empty rfl h.extrapolation, h.clock, hzero]
    exact ⟨rfl, rfl, rfl⟩

end Hasty

/-! ### All schedules -/

/-- There are fewer than `k` ticks, and no full state that comes in leads past `top`. -/
structure Modest (top : UInt32) (k : Nat) (schedule : List Beat) : Prop where
  received : ∀ b ∈ schedule, ∀ s ∈ b.received, s.isFull = true → s.toTick ≤ top
  ticks : schedule.countP Beat.isTick < k

/-- The clock runs over in one of the ticks. -/
def RunsOver (p : Player) (schedule : List Beat) : Prop :=
  ∃ before n after, schedule = before ++ .tick n :: after ∧ (p.beats before).Overruns n

theorem Timely.not_runsOver {top : UInt32} {k : Nat} (h : p.Timely top.toNat 0) {schedule : List Beat}
    (hmodest : Modest top k schedule) (hroom : top.toNat + k ≤ UInt32.size) : ¬ p.RunsOver schedule := by
  rintro ⟨before, n, after, rfl, hover⟩
  have hticks := hmodest.ticks
  rw [List.countP_append, List.countP_cons_of_pos (show (Beat.tick n).isTick = true from rfl)] at hticks
  have hreceived : ∀ b ∈ before, ∀ s ∈ b.received, s.isFull = true → s.toTick.toNat ≤ top.toNat := by
    intro b hb s hs hfull
    exact UInt32.le_iff_toNat_le.mp (hmodest.received b (List.mem_append_left _ hb) s hs hfull)
  exact (h.beats hreceived (by omega)).not_overruns n (by omega) hover

/-! ### A full state, and a tick for each number from its own to the last -/

/-- Nothing but ticks is to come to the player once it has looked at what has come. No state there leads past `top`; the
    next tick moves the clock on from `now`, and leaves no state. -/
structure Counting (s : Player × Network) (top : UInt32) (now : Nat) : Prop where
  ease : (s.1.informed s.2).AtEase (s.1.manager.process s.2).2
  pace : (s.1.informed s.2).timestep = .create Settings.defaultRate
  reading : ((s.1.informed s.2).reading (s.1.manager.process s.2).2).toNat = now
  coasts : ((s.1.informed s.2).runTick (s.1.manager.process s.2).2).1.Coasts
  left : s.1.manager.received = []
  waiting : ∀ x ∈ s.1.waiting s.2, x.toTick ≤ top

namespace Counting
variable {s : Player × Network} {top : UInt32} {now : Nat}

theorem due (h : Counting s top now) : ((s.1.informed s.2).timestep.advance tickLength).1 = 1 := by
  rw [h.pace]
  decide +kernel

theorem turn (h : Counting s top now) (hroom : now + 1 < UInt32.size) :
    Counting (turn s (.update tickLength)) top (now + 1) := by
  rw [turn_update_tick h.pace]
  have hease := h.ease.runTick
  have hinformed := hease.informed
  have hprocess := hease.process
  refine ⟨?_, ?_, ?_, ?_, h.coasts.received, fun x hx => ?_⟩
  · rw [hinformed, hprocess]
    exact hease
  · rw [hinformed, timestep_runTick, h.pace]
  · rw [hinformed, h.coasts.reading, toNat_tick_runTick (by rwa [h.reading]), h.reading]
  · rw [hinformed]
    exact h.coasts.runTick _
  · rw [Player.waiting, hprocess, h.coasts.received] at hx
    cases hx

theorem received (h : Counting s top now) {frame : Nat} {b : Beat} (hb : b ∈ score s (.update frame)) :
    ∀ x ∈ b.received, x.toTick ≤ top := by
  intro x hx
  rcases brings_of_score hb hx with hleft | ⟨-, -, hwaiting⟩
  · rw [h.left] at hleft
    cases hleft
  · exact h.waiting x hwaiting

/-- The clock goes on with each update. -/
theorem turns (h : Counting s top now) {count : Nat} (hroom : now + count < UInt32.size) :
    let ts := List.replicate count (.update tickLength)
    Counting (turns s ts) top (now + count) ∧ (scores s ts).countP Beat.isTick = count ∧
      ∀ b ∈ scores s ts, ∀ x ∈ b.received, x.toTick ≤ top := by
  induction count generalizing s now with
  | zero => exact ⟨h, rfl, fun b hb => by cases hb⟩
  | succ count ih =>
    obtain ⟨hlast, hcount, hreceived⟩ := ih (h.turn (by omega)) (by omega)
    rw [List.replicate_succ]
    refine ⟨?_, ?_, fun b hb => ?_⟩
    · rw [turns_cons, ← Nat.add_assoc, Nat.add_right_comm]
      exact hlast
    · rw [scores, List.countP_append, hcount, countP_score_update, h.due, Nat.add_comm]
    · rcases List.mem_append.mp hb with hb | hb
      · exact h.received hb
      · exact hreceived b hb

end Counting

/-- The settings of a player who is hasty. -/
def headlong : Settings := { eager with buffer := { eager.buffer with extrapolation := true } }

theorem connect_headlong : (connect hall listener "ann" headlong).1.toOption.isSome = true := by decide +kernel

def caller : Player := (connect hall listener "ann" headlong).1.toOption.get connect_headlong

def foyer : Network := (connect hall listener "ann" headlong).2

/-- It is let in and is sent the name table. -/
def admission : List Turn := greeting ++ [.others (say [tableFrame])]

/-- It has taken the table over. -/
def settled : Player × Network := turns (caller, foyer) (admission ++ [.update 0])

/-- So it cannot in a run of updates either, if no full state that waits at one of them leads past `top`. -/
theorem turns_not_runsOver {n' : Network} {remote : Address} {username : String} {settings : Settings}
    (connected : connect n remote username settings = (.ok p, n')) (ts : List Turn) {top : UInt32} {k : Nat}
    (waiting : ∀ before frame after, ts = before ++ .update frame :: after →
      ∀ x ∈ (turns (p, n') before).1.waiting (turns (p, n') before).2, x.isFull = true → x.toTick ≤ top)
    (ticks : (scores (p, n') ts).countP Beat.isTick < k) (hroom : top.toNat + k ≤ UInt32.size) :
    ¬ p.RunsOver (scores (p, n') ts) := by
  refine (timely_connect connected top.toNat).not_runsOver ⟨fun b hb x hx hfull => ?_, ticks⟩ hroom
  rcases received_scores hb hx with hleft | ⟨before, frame, after, heq, hx⟩
  · obtain ⟨addr, peer, -, rfl⟩ := connect_eq_ok connected
    cases hleft
  · exact waiting before frame after heq x hx hfull

/-! ### The last state there is -/

end Player
end StateSync
