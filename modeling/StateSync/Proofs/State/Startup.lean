import Mathlib.Algebra.Group.Nat.Defs
import StateSync.Proofs.Settings
import StateSync.Proofs.State.Priming

/-! A client that gets the state of every tick, in order and none lost, and selects after each. As long as it waits, its
    buffer holds the latest states that find room in it (`Filling`). Only the state of the first tick is full, so the
    client begins with it as soon as enough states have come, if the buffer has room for so many (`select_fed`). -/

namespace StateSync

namespace SortedMap
variable {α : Type} {m : SortedMap α} {k : UInt32}

theorem entries_insert_of_lt (x : α) (h : ∀ e ∈ m.entries, e.1 < k) :
    (m.insert k x).entries = m.entries ++ [(k, x)] := by
  suffices hput : ∀ es : List (UInt32 × α), (∀ e ∈ es, e.1 < k) → put k x es = es ++ [(k, x)] from hput m.entries h
  intro es hes
  induction es with
  | nil => rfl
  | cons e es ih =>
    obtain ⟨he, hes⟩ := List.forall_mem_cons.mp hes
    rw [put, if_pos he, ih hes, List.cons_append]

end SortedMap

/-- Each state leads from one tick to the next, from tick zero on, for as long as the ticks can be counted. -/
def IsUnbroken (state : Nat → GameState) : Prop :=
  ∀ n, n + 1 < UInt32.size →
    (state n).extrapolated = false ∧ (state n).fromTick.toNat = n ∧ (state n).toTick.toNat = n + 1

theorem IsUnbroken.follows {state : Nat → GameState} (h : IsUnbroken state) {i k : Nat} {tick : UInt32}
    (htick : tick.toNat = i) (hcount : i + k < UInt32.size) : Follows tick ((List.range' i k).map state) := by
  induction k generalizing i tick with
  | zero => trivial
  | succ k ih =>
    obtain ⟨-, hfrom, hto⟩ := h i (by omega)
    rw [List.range'_succ, List.map_cons]
    refine ⟨GameState.chainsFrom_iff.mpr ?_, ih hto (by omega)⟩
    rw [UInt32.le_iff_toNat_le, UInt32.lt_iff_toNat_lt, hfrom, hto, htick]
    omega

/-! ### The latest states -/

/-- The numbers of the latest of `n` states, as many as there is room for. -/
def latest (room n : Nat) : List Nat := (List.range n).drop (n - room)

section
variable {room n i : Nat}

theorem mem_latest : i ∈ latest room n ↔ i < n ∧ n ≤ i + room := by
  rw [latest, List.range_eq_range', List.drop_range', List.mem_range'_1]
  omega

theorem length_latest (room n : Nat) : (latest room n).length = min room n := by
  rw [latest, List.length_drop, List.length_range]
  omega

/-- With one more, the earliest has to go if there is no room. -/
theorem latest_succ (room n : Nat) :
    (latest room n ++ [n]).drop ((latest room n ++ [n]).length - room) = latest room (n + 1) := by
  have hconcat : latest room n ++ [n] = (List.range (n + 1)).drop (n - room) := by
    rw [List.range_succ, List.drop_append_of_le_length (by rw [List.length_range]; omega), latest]
  rw [List.length_append, length_latest, List.length_singleton, hconcat, List.drop_drop, latest]
  congr 1
  omega

end

namespace StateBuffer
variable {b : StateBuffer} {settings : BufferSettings} {state : Nat → GameState} {s : GameState}
  {origin : Nat → Nat} {clock : Nat → UInt32} {n : Nat}

/-! ### Filling the buffer -/

/-- Of `n` states that have come the buffer holds the latest, and it has applied none yet. -/
structure Filling (b : StateBuffer) (settings : BufferSettings) (state : Nat → GameState) (n : Nat) : Prop where
  sound : b.Sound
  inForce : b.settings = settings
  waiting : b.lastApplied = none
  entries : b.held.entries = (latest settings.maxSize n).map fun i => ((state i).toTick, state i)

theorem filling_create (settings : BufferSettings) (state : Nat → GameState) :
    (create settings).Filling settings state 0 :=
  ⟨sound_create settings, rfl, rfl, by rw [latest, List.range_zero, List.drop_nil]; rfl⟩

namespace Filling

theorem mem_values_iff (h : b.Filling settings state n) :
    s ∈ b.held.values ↔ ∃ i, i < n ∧ n ≤ i + settings.maxSize ∧ state i = s := by
  rw [SortedMap.values, h.entries, List.map_map]
  simp only [List.mem_map, mem_latest, Function.comp_apply, and_assoc]

theorem size_le (h : b.Filling settings state n) : b.size ≤ n := by
  rw [size, SortedMap.size, h.entries, List.length_map, length_latest]
  exact Nat.min_le_right _ _

theorem add (h : b.Filling settings state n) (hstate : IsUnbroken state) (hn : n + 1 < UInt32.size) (origin : Nat) :
    (b.add (state n) origin).1.Filling settings state (n + 1) := by
  obtain ⟨hreal, hfrom, hto⟩ := hstate n hn
  have hbehind : ∀ e ∈ b.held.entries, e.1 < (state n).toTick := by
    intro e he
    rw [h.entries] at he
    obtain ⟨i, hi, rfl⟩ := List.mem_map.mp he
    have hlt := (mem_latest.mp hi).1
    rw [UInt32.lt_iff_toNat_lt, (hstate i (by omega)).2.2, hto]
    omega
  have haccepts : b.accepts (state n) = true := by
    have hwell : isWellFormed (state n) = true :=
      isWellFormed_iff.mpr ⟨hreal, by rw [UInt32.lt_iff_toNat_lt, hfrom, hto]; omega⟩
    have hnew : b.held.get? (state n).toTick = none := Option.eq_none_iff_forall_ne_some.mpr fun s hs =>
      UInt32.lt_irrefl _ (hbehind _ (SortedMap.get?_eq_some_iff.mp hs))
    simp [accepts, hwell, isLate, lastTick, h.waiting, isSuperseded, hnew]
  refine ⟨h.sound.add (state n) origin, (b.settings_add _ _).trans h.inForce,
    (b.lastApplied_add _ _).trans h.waiting, ?_⟩
  rw [add_of_accepts haccepts]
  simp only [hold, SortedMap.greatest, SortedMap.size, SortedMap.entries_insert_of_lt _ hbehind, h.inForce, h.entries]
  rw [← List.map_singleton (f := fun i => ((state i).toTick, state i)), ← List.map_append, List.length_map,
    ← List.map_drop, latest_succ]

/-- Of the states held only the first is full, and all that have come since follow it. -/
theorem primes_iff (h : b.Filling settings state n) (hstate : IsUnbroken state) (hn : n < UInt32.size) :
    b.Primes s ↔ s = state 0 ∧ max 1 settings.minSize ≤ n ∧ n ≤ settings.maxSize := by
  constructor
  · intro hp
    obtain ⟨i, hi, hroom, rfl⟩ := h.mem_values_iff.mp hp.1
    have hzero : (state i).fromTick = 0 := of_decide_eq_true hp.2.1
    have hfirst : i = 0 := by rw [← (hstate i (by omega)).2.1, hzero]; rfl
    have hleast := h.sound.minSize_le_size hp
    rw [h.inForce] at hleast
    have hsize := h.size_le
    subst hfirst
    exact ⟨rfl, by omega, by omega⟩
  · rintro ⟨rfl, hleast, hroom⟩
    obtain ⟨-, hfrom, hto⟩ := hstate 0 (by decide)
    refine ⟨h.mem_values_iff.mpr ⟨0, by omega, by omega, rfl⟩, ?_, (List.range' 1 (n - 1)).map state, ?_,
      hstate.follows hto (by omega), ?_⟩
    · exact decide_eq_true (UInt32.toNat_inj.mp hfrom)
    · intro x hx
      obtain ⟨i, hi, rfl⟩ := List.mem_map.mp hx
      rw [List.mem_range'_1] at hi
      exact h.mem_values_iff.mpr ⟨i, by omega, by omega, rfl⟩
    · rw [h.inForce, List.length_cons, List.length_map, List.length_range']
      omega

theorem begins_iff (h : b.Filling settings state n) (hstate : IsUnbroken state) (hn : n < UInt32.size) :
    b.Begins ↔ max 1 settings.minSize ≤ n ∧ n ≤ settings.maxSize := by
  simp only [h.sound.begins_iff, h.primes_iff hstate hn, exists_eq_left]

end Filling

/-! ### The first selections -/

/-- The buffer that has been given the first `n` states, with a selection after each. -/
def fed (b : StateBuffer) (state : Nat → GameState) (origin : Nat → Nat) (clock : Nat → UInt32) : Nat → StateBuffer
  | 0 => b
  | n + 1 => (((b.fed state origin clock n).add (state n) (origin n)).1.select (clock n)).2.2

/-- The selection that comes after the next state. -/
def selectFed (b : StateBuffer) (state : Nat → GameState) (origin : Nat → Nat) (clock : Nat → UInt32) (n : Nat) :
    Selection × UInt32 × StateBuffer :=
  ((b.fed state origin clock n).add (state n) (origin n)).1.select (clock n)

theorem filling_fed (hstate : IsUnbroken state) (hn : n < UInt32.size)
    (hwaits : ∀ i ≤ n, ¬ (max 1 settings.minSize ≤ i ∧ i ≤ settings.maxSize)) :
    ((create settings).fed state origin clock n).Filling settings state n := by
  induction n with
  | zero => exact filling_create settings state
  | succ n ih =>
    have hadded := (ih (by omega) fun i hi => hwaits i (by omega)).add hstate hn (origin n)
    have hnot := mt (hadded.begins_iff hstate hn).mp (hwaits (n + 1) (Nat.le_refl _))
    rw [fed, select_of_not_begins hadded.waiting hnot]
    exact hadded

theorem selectFed_of_waits (hstate : IsUnbroken state) (hn : n + 1 < UInt32.size)
    (hwaits : ∀ i ≤ n + 1, ¬ (max 1 settings.minSize ≤ i ∧ i ≤ settings.maxSize)) :
    ((create settings).selectFed state origin clock n).1 = .nothing ∧
      ((create settings).selectFed state origin clock n).2.1 = clock n := by
  have hfilling : ((create settings).fed state origin clock n).Filling settings state n :=
    filling_fed hstate (by omega) fun i hi => hwaits i (by omega)
  have hadded := hfilling.add hstate hn (origin n)
  have hnot := mt (hadded.begins_iff hstate hn).mp (hwaits (n + 1) (Nat.le_refl _))
  rw [selectFed, select_of_not_begins hadded.waiting hnot]
  exact ⟨rfl, rfl⟩

theorem selectFed_of_begins (hstate : IsUnbroken state) (hn : n + 1 < UInt32.size)
    (hwaits : ∀ i ≤ n, ¬ (max 1 settings.minSize ≤ i ∧ i ≤ settings.maxSize))
    (hbegins : max 1 settings.minSize ≤ n + 1 ∧ n + 1 ≤ settings.maxSize) :
    ((create settings).selectFed state origin clock n).1 = .chosen (state 0) none [] ∧
      ((create settings).selectFed state origin clock n).2.1 = (state 0).toTick := by
  have hfilling : ((create settings).fed state origin clock n).Filling settings state n :=
    filling_fed hstate (by omega) hwaits
  have hadded := hfilling.add hstate hn (origin n)
  obtain ⟨s, hs, hselect⟩ :=
    select_of_begins hadded.waiting ((hadded.begins_iff hstate hn).mpr hbegins) (clock n)
  obtain ⟨rfl, -⟩ := (hadded.primes_iff hstate hn).mp (hadded.sound.primer_eq_some_iff.mp hs).1
  rw [selectFed, hselect]
  exact ⟨rfl, rfl⟩

/-- Whatever changes the settings have been through, if the least size is not too large to be reached: a client that
    gets the states of all ticks in order, and selects after each, waits until it has as many as the least size asks
    for, and at least one. It then begins with the full state of tick 1, if the buffer has room for that many. If it has
    not, the state of tick 1 has always gone by the time that enough others have come, and the client never begins. -/
theorem select_fed (changes : List (String × String)) (state : Nat → GameState) (origin : Nat → Nat)
    (clock : Nat → UInt32) (hstate : IsUnbroken state)
    (hleast : (Settings.initial.setAll changes).buffer.minSize < 2 ^ 31) :
    let settings := (Settings.initial.setAll changes).buffer
    let least := max 1 settings.minSize
    let selected := (create settings).selectFed state origin clock
    (∀ n, n + 1 < least → (selected n).1 = .nothing ∧ (selected n).2.1 = clock n) ∧
    (least ≤ settings.maxSize →
      (selected (least - 1)).1 = .chosen (state 0) none [] ∧ (selected (least - 1)).2.1 = 1) ∧
    (settings.maxSize < least →
      ∀ n, n + 1 < UInt32.size → (selected n).1 = .nothing ∧ (selected n).2.1 = clock n) := by
  intro settings least selected
  have hsize : least < UInt32.size := Nat.max_lt.mpr ⟨by decide, Nat.lt_trans hleast (by decide)⟩
  have hone : (state 0).toTick = 1 := UInt32.toNat_inj.mp (hstate 0 (by decide)).2.2
  refine ⟨fun n hn => ?_, fun hroom => ?_, fun hroom n hn => ?_⟩
  · exact selectFed_of_waits hstate (by omega) fun i hi => by omega
  · have hpos : least - 1 + 1 = least := Nat.sub_add_cancel (Nat.le_max_left 1 _)
    rw [← hone]
    exact selectFed_of_begins hstate (by omega) (fun i hi => by omega) (by omega)
  · exact selectFed_of_waits hstate hn fun i hi => by omega

/-- States without contents. -/
def bare (n : Nat) : GameState := .blank (UInt32.ofNat n) (UInt32.ofNat (n + 1))

theorem isUnbroken_bare : IsUnbroken bare := fun _ hn =>
  ⟨rfl, UInt32.toNat_ofNat_of_lt' (Nat.lt_of_succ_lt hn), UInt32.toNat_ofNat_of_lt' hn⟩

/-- The change that makes no sense is refused. -/
def twoOfTwo : List (String × String) := [("net.buffer_min", "2"), ("net.buffer_max", "few"), ("net.buffer_max", "2")]

/-- Two states are asked for, and there is just room for two. -/
theorem select_fed_two :
    let settings := (Settings.initial.setAll twoOfTwo).buffer
    let selected := (create settings).selectFed bare id fun _ => 100
    settings.minSize = 2 ∧ settings.maxSize = 2 ∧ (selected 0).1 = .nothing ∧ (selected 0).2.1 = 100 ∧
      (selected 1).1 = .chosen (bare 0) none [] ∧ (selected 1).2.1 = 1 := by
  intro settings
  have hsettings : settings = { minSize := 2, maxSize := 2 } := by decide +kernel
  have hmin : settings.minSize = 2 := congrArg BufferSettings.minSize hsettings
  have hmax : settings.maxSize = 2 := congrArg BufferSettings.maxSize hsettings
  have hleast : max 1 settings.minSize = 2 := by rw [hmin]; rfl
  have hsmall : settings.minSize < 2 ^ 31 := by rw [hmin]; decide
  obtain ⟨hwaits, hbegins, -⟩ := select_fed twoOfTwo bare id (fun _ => 100) isUnbroken_bare hsmall
  rw [hleast] at hwaits hbegins
  dsimp only [settings] at hbegins ⊢
  obtain ⟨hidle, hclock⟩ := hwaits 0 (by decide)
  exact ⟨hmin, hmax, hidle, hclock, hbegins (by rw [hmax])⟩

/-- Three states are asked for, and there is room for two: none of the selections applies anything. -/
theorem selectFed_cramped : ∃ s, Settings.initial.set "net.buffer_max" "2" = (.ok (), s) ∧ max 1 s.buffer.minSize = 3 ∧
    ∀ n, n + 1 < UInt32.size → ((create s.buffer).selectFed bare id (fun _ => 100) n).1.applied = false := by
  refine ⟨{ Settings.initial with buffer := { maxSize := 2 } }, by decide +kernel, rfl, fun n hn => ?_⟩
  have hnever : ∀ i ≤ n + 1, ¬ (max 1 3 ≤ i ∧ i ≤ 2) := fun i _ => by omega
  have hidle : ((create { maxSize := 2 }).selectFed bare id (fun _ => 100) n).1 = .nothing :=
    (selectFed_of_waits isUnbroken_bare hn hnever).1
  rw [hidle]
  rfl

end StateBuffer
end StateSync
