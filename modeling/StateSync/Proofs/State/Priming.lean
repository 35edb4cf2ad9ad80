import StateSync.Proofs.State.Beginning
import StateSync.Proofs.State.Reach

/-! Which full state a waiting buffer begins with. No sequence of states held that follow one another is longer than the
    chain (`length_le_chainFrom`), so the length of the chain behind a full state tells whether enough states follow it in
    any way, and a buffer that holds too few states has no such full state (`begins_iff`, `select_unprimed`). -/

namespace StateSync

theorem Follows.increasing {tick : UInt32} {ss : List GameState} (h : Follows tick ss) :
    ss.Pairwise fun p s => p.toTick < s.toTick := increasing_of_isChain h.isChain.2

namespace StateBuffer
variable {b : StateBuffer} {s : GameState} {ss : List GameState} {tick clock : UInt32}

/-- The state held is full, and with states held that follow it, each leading on from the one before, it makes up at
    least the least size. -/
def Primes (b : StateBuffer) (s : GameState) : Prop :=
  s ∈ b.held.values ∧ s.isFull = true ∧
    ∃ ss, ss ⊆ b.held.values ∧ Follows s.toTick ss ∧ max 1 b.settings.minSize ≤ (s :: ss).length

/-! ### The longest sequence -/

theorem Sound.length_le_chainFrom (h : b.Sound) (hheld : ss ⊆ b.held.values) (hf : Follows tick ss) :
    ss.length ≤ (b.chainFrom tick).length := by
  have hnodup : ss.Nodup := by
    refine hf.increasing.imp fun hlt heq => ?_
    exact UInt32.lt_irrefl _ (heq ▸ hlt)
  refine hnodup.length_le_of_subset fun x hx => h.mem_chainFrom_iff.mpr ⟨?_, h.held_iff.mp (hheld hx)⟩
  exact reaches_of_follows hf (fun y hy => SortedMap.mem_values.mp (hheld hy)) (Or.inl rfl) hx

theorem length_chainFrom_le_size (b : StateBuffer) (tick : UInt32) : (b.chainFrom tick).length ≤ b.size :=
  (chainIn_sublist tick _).length_le.trans_eq (List.length_map _)

theorem Sound.primes_iff (h : b.Sound) : b.Primes s ↔
    s ∈ b.held.values ∧ s.isFull = true ∧ b.settings.minSize ≤ 1 + (b.chainFrom s.toTick).length := by
  refine and_congr_right fun _ => and_congr_right fun _ => ⟨?_, fun hlen => ?_⟩
  · rintro ⟨ss, hheld, hf, hlen⟩
    have hlongest := h.length_le_chainFrom hheld hf
    rw [List.length_cons] at hlen
    omega
  · refine ⟨b.chainFrom s.toTick, (chainIn_sublist s.toTick _).subset, follows_chainIn s.toTick _, ?_⟩
    rw [List.length_cons]
    omega

/-- A full state leads on from tick zero, so it and what follows it are a sequence of states held. -/
theorem Sound.minSize_le_size (h : b.Sound) (hp : b.Primes s) : b.settings.minSize ≤ b.size := by
  obtain ⟨hs, hfull, ss, hheld, hf, hlen⟩ := hp
  have hzero : s.fromTick = 0 := of_decide_eq_true hfull
  have hpos : 0 < s.toTick := hzero ▸ (isWellFormed_iff.mp (h.wellFormed (h.held_iff.mp hs))).2
  have hall : Follows 0 (s :: ss) := ⟨GameState.chainsFrom_iff.mpr ⟨hzero ▸ UInt32.le_refl _, hpos⟩, hf⟩
  have hlongest := h.length_le_chainFrom (List.cons_subset.mpr ⟨hs, hheld⟩) hall
  have hsize := b.length_chainFrom_le_size 0
  omega

/-! ### The state to begin with -/

theorem Sound.primer_eq_some_iff (h : b.Sound) :
    b.primer = some s ↔ b.Primes s ∧ ∀ x, b.Primes x → x.toTick ≤ s.toTick := by
  rw [primer, fullStates, List.find?_filter, h.find?_values_reverse, ← h.held_iff, ← h.forall_held]
  simp only [h.primes_iff, decide_eq_true_eq, and_assoc, and_imp]

theorem Sound.begins_iff (h : b.Sound) : b.Begins ↔ ∃ s, b.Primes s := by
  constructor
  · rintro ⟨-, hprimer⟩
    obtain ⟨s, hs⟩ := Option.isSome_iff_exists.mp hprimer
    exact ⟨s, (h.primer_eq_some_iff.mp hs).1⟩
  · rintro ⟨s, hp⟩
    refine ⟨h.minSize_le_size hp, ?_⟩
    obtain ⟨hs, hfull, hlen⟩ := h.primes_iff.mp hp
    rw [primer, List.find?_isSome]
    exact ⟨s, mem_fullStates.mpr ⟨SortedMap.mem_values.mp hs, hfull⟩, decide_eq_true hlen⟩

end StateBuffer

namespace Course
open StateBuffer

/-- A client that waits for its first state applies one at whatever tick it is, exactly if some full state held is
    followed by enough others. It is the newest of these; the client's tick becomes that of the state, what is held for
    later ticks stays, and nothing else. Otherwise the selection changes neither the buffer nor the client's tick. -/
theorem select_unprimed (settings : BufferSettings) (ops : List Operation) (clock : UInt32)
    (hnew : (run settings ops).buffer.lastApplied = none) :
    let b := (run settings ops).buffer
    ((b.select clock).1.applied = true ↔ ∃ s, b.Primes s) ∧
    ((∃ s, b.Primes s) → ∃ s b', b.Primes s ∧ (∀ x, b.Primes x → x.toTick ≤ s.toTick) ∧
      Advanced b b' s.toTick s ∧ b.select clock = (.chosen s none [], s.toTick, b')) ∧
    ((¬ ∃ s, b.Primes s) → b.select clock = (.nothing, clock, b)) := by
  intro b
  have h : b.Sound := (sound_run settings ops).buffer
  have hbegins : (∃ s, b.Primes s) → ∃ s b', b.Primes s ∧ (∀ x, b.Primes x → x.toTick ≤ s.toTick) ∧
      Advanced b b' s.toTick s ∧ b.select clock = (.chosen s none [], s.toTick, b') := by
    intro hsome
    obtain ⟨s, hs, hselect⟩ := select_of_begins hnew (h.begins_iff.mpr hsome) clock
    obtain ⟨hp, hnewest⟩ := h.primer_eq_some_iff.mp hs
    exact ⟨s, b.apply s, hp, hnewest, advanced_apply (h.held_iff.mp hp.1) rfl, hselect⟩
  have hwaits : (¬ ∃ s, b.Primes s) → b.select clock = (.nothing, clock, b) := fun hnone =>
    select_of_not_begins hnew (mt h.begins_iff.mp hnone) clock
  refine ⟨⟨fun happlied => ?_, fun hsome => ?_⟩, hbegins, hwaits⟩
  · by_contra hnone
    rw [hwaits hnone] at happlied
    cases happlied
  · obtain ⟨s, b', -, -, -, hselect⟩ := hbegins hsome
    rw [hselect]
    rfl

/-- Two full states are held, and two deltas that follow the older one. -/
def outrun : List Operation :=
  [.add (.full 9) 0, .add (.blank 4 8) 0, .add (.full 5) 0, .add (.blank 5 6) 0]

/-- Nothing follows the newer full state, so the client begins with the older one. -/
theorem select_unprimed_outrun :
    let b := (run {} outrun).buffer
    b.lastApplied = none ∧ b.Primes (.full 5) ∧ ¬ b.Primes (.full 9) ∧
      ((b.select 100).1.applied = true ↔ ∃ s, b.Primes s) ∧
      ∃ s b', b.Primes s ∧ (∀ x, b.Primes x → x.toTick ≤ s.toTick) ∧
        Advanced b b' s.toTick s ∧ b.select 100 = (.chosen s none [], s.toTick, b') := by
  intro b
  have h : b.Sound := (sound_run {} outrun).buffer
  have hnew : b.lastApplied = none := by decide +kernel
  have hold : b.Primes (.full 5) := h.primes_iff.mpr (by decide +kernel)
  have hlate : ¬ b.Primes (.full 9) := fun hp => absurd (h.primes_iff.mp hp) (by decide +kernel)
  obtain ⟨happlied, hbegins, -⟩ := select_unprimed {} outrun 100 hnew
  exact ⟨hnew, hold, hlate, happlied, hbegins ⟨_, hold⟩⟩

end Course
end StateSync
