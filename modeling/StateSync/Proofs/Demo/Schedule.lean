import StateSync.Proofs.Demo.Loss

/-! What happens to a player, beat by beat: its manager works, its connection is lost, time passes, a tick comes. Every run
    of updates is such a schedule (`turns_eq_beats`), and what comes in on it has been waiting at one of the updates
    (`received_scores`). -/

namespace StateSync
namespace Player
variable {p : Player} {n : Network}

/-! ### Schedules -/

/-- What happens to a player: its updates in the smallest steps. -/
inductive Beat where
  /-- The manager has worked, and has these states for the player. -/
  | receive (m : Manager Address GameState)
  | lose
  /-- Time passes, and no tick is due. -/
  | await (t : Timestep)
  | tick (n : Network)

def beat (p : Player) : Beat → Player
  | .receive m => { p with manager := m }
  | .lose => p.bereave
  | .await t => { p with timestep := t }
  | .tick n => (p.runTick n).1

def beats (p : Player) (schedule : List Beat) : Player := schedule.foldl beat p

def Beat.received : Beat → List GameState
  | .receive m => m.received.map (·.2)
  | _ => []

def Beat.isTick : Beat → Bool
  | .tick _ => true
  | _ => false

theorem Beat.exists_of_isTick {b : Beat} (h : b.isTick = true) : ∃ n, b = .tick n := by
  cases b with
  | tick n => exact ⟨n, rfl⟩
  | receive m => cases h
  | lose => cases h
  | await t => cases h

/-! ### Runs as schedules -/

/-- An update begins with the work of the manager and with what it has to tell. -/
def preparation (p : Player) (n : Network) : List Beat :=
  .receive (p.manager.process n).1.takeEvents.2 :: if (p.news n).any (·.isEnd) then [.lose] else []

def ticksFrom (p : Player) (n : Network) : Nat → List Beat
  | 0 => []
  | count + 1 => .tick n :: ticksFrom (p.runTick n).1 (p.runTick n).2 count

/-- What a player does in its turn, beat by beat. -/
def score (s : Player × Network) : Turn → List Beat
  | .update frame =>
    let p := s.1.informed s.2
    let (count, timestep) := p.timestep.advance frame
    s.1.preparation s.2 ++ .await timestep :: ticksFrom { p with timestep := timestep } (s.1.manager.process s.2).2 count
  | .shutdown => [.receive (s.1.manager.shutdown s.2 "Client quit").1]
  | .others _ => []

def scores (s : Player × Network) : List Turn → List Beat
  | [] => []
  | t :: ts => score s t ++ scores (turn s t) ts

theorem countP_ticksFrom (p : Player) (n : Network) (count : Nat) : (ticksFrom p n count).countP Beat.isTick = count := by
  induction count generalizing p n with
  | zero => rfl
  | succ count ih => rw [ticksFrom, List.countP_cons_of_pos rfl, ih]

/-- An update has the ticks that are due. -/
theorem countP_score_update (s : Player × Network) (frame : Nat) :
    (score s (.update frame)).countP Beat.isTick = ((s.1.informed s.2).timestep.advance frame).1 := by
  have hpreparation : (s.1.preparation s.2).countP Beat.isTick = 0 := by
    rw [preparation]
    split <;> rfl
  rw [score]
  dsimp only
  rw [List.countP_append, hpreparation, List.countP_cons_of_neg Bool.false_ne_true, countP_ticksFrom, Nat.zero_add]

section
variable {s : Player × Network} {t : Turn} {ts : List Turn} {x : GameState} {b : Beat}

theorem received_runTicks {count : Nat} (hx : x ∈ (p.runTicks n count).1.manager.received.map (·.2)) :
    x ∈ p.manager.received.map (·.2) := by
  induction count generalizing p n with
  | zero => exact hx
  | succ count ih =>
    have hnone : x ∈ (p.runTick n).1.manager.received.map (·.2) := ih hx
    rw [manager_runTick] at hnone
    cases hnone

theorem received_ticksFrom {count : Nat} (hb : b ∈ ticksFrom p n count) : b.received = [] := by
  induction count generalizing p n with
  | zero => cases hb
  | succ count ih =>
    rcases List.mem_cons.mp hb with rfl | hb
    · rfl
    · exact ih hb

theorem manager_informed (p : Player) (n : Network) : (p.informed n).manager = (p.manager.process n).1.takeEvents.2 :=
  manager_handleEvents _

/-- The manager has for the player what it had for it before, or what waits at this update. -/
def Brings (s : Player × Network) (t : Turn) (x : GameState) : Prop :=
  x ∈ s.1.manager.received.map (·.2) ∨ ∃ frame, t = .update frame ∧ x ∈ s.1.waiting s.2

theorem brings_of_turn (hx : x ∈ (turn s t).1.manager.received.map (·.2)) : Brings s t x := by
  cases t with
  | update frame =>
    rw [turn_update, update_eq] at hx
    have hx := received_runTicks hx
    rw [show (Player.manager { s.1.informed s.2 with timestep := _ }) = (s.1.informed s.2).manager from rfl,
      manager_informed] at hx
    exact Or.inr ⟨frame, rfl, hx⟩
  | shutdown =>
    have hsame := (Manager.shutdown_leaves s.1.manager s.2 "Client quit").received
    exact Or.inl (hsame ▸ hx)
  | others f => exact Or.inl hx

theorem brings_of_score (hb : b ∈ score s t) (hx : x ∈ b.received) : Brings s t x := by
  cases t with
  | update frame =>
    rcases List.mem_append.mp hb with hb | hb
    · rcases List.mem_cons.mp hb with rfl | hb
      · exact Or.inr ⟨frame, rfl, hx⟩
      · split at hb
        · obtain rfl := List.mem_singleton.mp hb
          cases hx
        · cases hb
    · rcases List.mem_cons.mp hb with rfl | hb
      · cases hx
      · rw [received_ticksFrom hb] at hx
        cases hx
  | shutdown =>
    obtain rfl := List.mem_singleton.mp hb
    have hsame := (Manager.shutdown_leaves s.1.manager s.2 "Client quit").received
    exact Or.inl (hsame ▸ hx)
  | others f => cases hb

/-- All that comes in was there at the start, or waits at one of the updates. -/
theorem received_scores (hb : b ∈ scores s ts) (hx : x ∈ b.received) :
    x ∈ s.1.manager.received.map (·.2) ∨ ∃ before frame after, ts = before ++ .update frame :: after ∧
      x ∈ (turns s before).1.waiting (turns s before).2 := by
  have hnow : ∀ {s t ts}, Brings s t x → x ∈ s.1.manager.received.map (·.2) ∨ ∃ before frame after,
      t :: ts = before ++ .update frame :: after ∧ x ∈ (turns s before).1.waiting (turns s before).2 := by
    rintro s t ts (hleft | ⟨frame, rfl, hwaiting⟩)
    · exact Or.inl hleft
    · exact Or.inr ⟨[], frame, ts, rfl, hwaiting⟩
  induction ts generalizing s with
  | nil => cases hb
  | cons t ts ih =>
    rcases List.mem_append.mp hb with hb | hb
    · exact hnow (brings_of_score hb hx)
    · rcases ih hb with hleft | ⟨before, frame, after, rfl, hwaiting⟩
      · exact hnow (brings_of_turn hleft)
      · exact Or.inr ⟨t :: before, frame, after, rfl, hwaiting⟩

end

end Player
end StateSync
