import StateSync.Proofs.State.Selection
import StateSync.State.View

/-! The course of a client's buffer: any sequence of arrivals, selections, changes of the settings and
    resets. What has been applied since the last reset begins with a full state, goes strictly forward and
    leaves no gap (`applied_gapFree`). -/

namespace StateSync

/-- The states that are handed out and are no placeholders, in the order in which they are to be applied. -/
def Selection.real (r : Selection) : List GameState := (r.catchUp ++ r.current.toList).filter (!·.extrapolated)

/-- States that are no placeholders are all handed out, and the client folds all of them. -/
theorem Selection.real_chosen {chain : List GameState} {s : GameState} (next : Option GameState)
    (h : ∀ x ∈ chain ++ [s], x.extrapolated = false) :
    (Selection.chosen s next chain).real = chain ++ [s] ∧ (Selection.chosen s next chain).received = chain ++ [s] := by
  have hs := h s (List.mem_append_right _ (List.mem_singleton_self s))
  exact ⟨List.filter_eq_self.mpr fun x hx => by simp [h x hx], by simp [received, chosen, hs]⟩

/-- A buffer, what it has taken in and handed out since it was last reset, and the entities that a client
    knows by folding the latter. -/
structure Course where
  buffer : StateBuffer
  accepted : List GameState
  applied : List GameState
  view : EntityView

namespace Course

/-- What a client does to its buffer. -/
inductive Operation where
  | add (s : GameState) (origin : Nat)
  | select (clock : UInt32)
  | setExtrapolation (on : Bool)
  | setMinSize (n : Nat)
  | reset

def create (settings : BufferSettings) : Course := ⟨.create settings, [], [], .empty⟩

def step (c : Course) : Operation → Course
  | .add s origin =>
    let (b, ok) := c.buffer.add s origin
    { c with buffer := b, accepted := if ok then c.accepted ++ [s] else c.accepted }
  | .select clock =>
    let (r, _, b) := c.buffer.select clock
    { c with
      buffer := b
      applied := c.applied ++ r.real
      view := r.received.foldl (fun v s => s.applyTo v) c.view }
  | .setExtrapolation on => { c with buffer := c.buffer.setExtrapolation on }
  | .setMinSize n => { c with buffer := c.buffer.setMinSize n }
  | .reset => ⟨c.buffer.reset, [], [], .empty⟩

def run (settings : BufferSettings) (ops : List Operation) : Course := ops.foldl step (create settings)

/-! ### What is applied -/

/-- A full state comes first, and each further state leads on from the one before it. -/
structure GapFree (ss : List GameState) : Prop where
  first : ∀ s ∈ ss.head?, s.isFull = true
  chained : ss.IsChain fun p s => s.chainsFrom p.toTick = true

/-- Where the next state has to lead on from, if one has been applied. -/
def lastOf (ss : List GameState) : Option UInt32 := ss.getLast?.map (·.toTick)

theorem GapFree.append {ss chain : List GameState} {last : UInt32} (h : GapFree ss) (hl : lastOf ss = some last)
    (hc : Follows last chain) : GapFree (ss ++ chain) := by
  obtain ⟨p, hp, rfl⟩ := Option.map_eq_some_iff.mp hl
  obtain ⟨hhead, hchain⟩ := hc.isChain
  refine ⟨fun s hs => h.first s ?_, List.isChain_append.mpr ⟨h.chained, hchain, ?_⟩⟩
  · have hne : ss ≠ [] := by rintro rfl; cases hp
    rwa [List.head?_append_of_ne_nil _ hne] at hs
  · intro q hq s hs
    obtain rfl := Option.some.inj (hp.symm.trans hq)
    exact hhead s hs

theorem GapFree.singleton {s : GameState} (hs : s.isFull = true) : GapFree [s] :=
  ⟨fun x hx => by obtain rfl := Option.some.inj hx; exact hs, .singleton s⟩

theorem GapFree.increasing {ss : List GameState} (h : GapFree ss) : ss.Pairwise fun p s => p.toTick < s.toTick :=
  increasing_of_isChain h.chained

/-! ### What a selection hands out -/

/-- A selection hands out nothing and leaves the buffer as it is, or it hands out states that were held, of
    which the last becomes the last one applied: a full state, or a chain from the last one applied. -/
theorem select_outcome {b : StateBuffer} {clock : UInt32} {r : Selection × UInt32 × StateBuffer} (h : b.Sound)
    (hr : b.Selects clock r) : r.1.received = r.1.real ∧
      ((r.1.real = [] ∧ r.2.2 = b) ∨
        ∃ chain s, r.1.real = chain ++ [s] ∧ r.2.2 = b.apply s ∧
          (∀ x ∈ chain ++ [s], ∃ k, b.held.get? k = some x) ∧
          ((chain = [] ∧ s.isFull = true) ∨ ∃ last ∈ b.lastTick, Follows last (chain ++ [s]))) := by
  have hreal : ∀ {chain s}, (∀ x ∈ chain ++ [s], ∃ k, b.held.get? k = some x) →
      ∀ x ∈ chain ++ [s], x.extrapolated = false := by
    intro chain s hmem x hx
    obtain ⟨k, hk⟩ := hmem x hx
    exact (StateBuffer.isWellFormed_iff.mp (h.wellFormed hk)).1
  cases hr with
  | wait => exact ⟨rfl, Or.inl ⟨rfl, rfl⟩⟩
  | rewind _ _ => exact ⟨rfl, Or.inl ⟨rfl, rfl⟩⟩
  | extrapolate _ _ => exact ⟨rfl, Or.inl ⟨rfl, rfl⟩⟩
  | @full k s hk hfull =>
    have hmem : ∀ x ∈ [] ++ [s], ∃ k, b.held.get? k = some x := by
      intro x hx
      obtain rfl := List.mem_singleton.mp hx
      exact ⟨k, hk⟩
    obtain ⟨hout, hrec⟩ := Selection.real_chosen none (hreal hmem)
    exact ⟨hrec.trans hout.symm, Or.inr ⟨[], s, hout, rfl, hmem, Or.inl ⟨rfl, hfull⟩⟩⟩
  | @follow last chain s hlast hp =>
    have hmem : ∀ x ∈ chain ++ [s], ∃ k, b.held.get? k = some x := fun x hx =>
      StateBuffer.mem_held_of_mem_chainFrom (hp.mem hx)
    obtain ⟨hout, hrec⟩ := Selection.real_chosen ((b.apply s).following s.toTick) (hreal hmem)
    exact ⟨hrec.trans hout.symm, Or.inr ⟨chain, s, hout, rfl, hmem,
      Or.inr ⟨last, hlast, (StateBuffer.follows_chainIn last _).initial hp⟩⟩⟩

/-! ### The invariant -/

/-- The buffer is sound, holds only what was taken in, and goes on from what was applied, which was taken in
    and leaves no gap. -/
structure Sound (c : Course) : Prop where
  buffer : c.buffer.Sound
  held : ∀ {k s}, c.buffer.held.get? k = some s → s ∈ c.accepted
  last : c.buffer.lastApplied = c.applied.getLast?
  gapFree : GapFree c.applied
  applied : ∀ s ∈ c.applied, s ∈ c.accepted ∧ StateBuffer.isWellFormed s = true

theorem sound_create (settings : BufferSettings) : (create settings).Sound where
  buffer := StateBuffer.sound_create settings
  held h := by cases h
  last := rfl
  gapFree := ⟨fun _ h => (nomatch h), List.IsChain.nil⟩
  applied _ h := (nomatch h)

theorem Sound.add {c : Course} (h : c.Sound) (s : GameState) (origin : Nat) : (c.step (.add s origin)).Sound := by
  have hb := h.buffer.add s origin
  cases ha : c.buffer.accepts s with
  | false =>
    simp only [step, StateBuffer.add_of_not_accepts ha]
    exact h
  | true =>
    rw [StateBuffer.add_of_accepts ha] at hb
    simp only [step, StateBuffer.add_of_accepts ha, if_true]
    refine ⟨hb, fun hx => ?_, h.last, h.gapFree, fun x hx => ?_⟩
    · rcases StateBuffer.get?_hold hx with ⟨-, rfl⟩ | hx
      · exact List.mem_append_right _ (List.mem_singleton_self _)
      · exact List.mem_append_left _ (h.held hx)
    · exact (h.applied x hx).imp_left (List.mem_append_left _)

theorem Sound.select {c : Course} (h : c.Sound) (clock : UInt32) : (c.step (.select clock)).Sound := by
  have hr := c.buffer.select_selects clock
  have hb := h.buffer.selects hr
  obtain ⟨-, ⟨hnone, hsame⟩ | ⟨chain, s, hsome, happ, hmem, hleads⟩⟩ := select_outcome h.buffer hr
  · simp only [step, hnone, hsame, List.append_nil]
    exact ⟨h.buffer, h.held, h.last, h.gapFree, h.applied⟩
  · rw [happ] at hb
    simp only [step, hsome, happ]
    refine ⟨hb, fun hx => h.held (StateBuffer.get?_apply hx).2, ?_, ?_, fun x hx => ?_⟩
    · rw [← List.append_assoc, List.getLast?_concat]
      rfl
    · -- A full state may come first; whatever comes later leads on from the last one applied.
      have hgo : ∀ last ∈ c.buffer.lastTick, Follows last (chain ++ [s]) → GapFree (c.applied ++ (chain ++ [s])) :=
        fun last hl hf => h.gapFree.append (by rw [lastOf, ← h.last]; exact hl) hf
      rcases hleads with ⟨rfl, hfull⟩ | ⟨last, hl, hf⟩
      · cases hl : c.buffer.lastTick with
        | none =>
          have hnil : c.applied = [] := by
            rw [StateBuffer.lastTick, Option.map_eq_none_iff, h.last, List.getLast?_eq_none_iff] at hl
            exact hl
          rw [hnil]
          exact .singleton hfull
        | some last =>
          obtain ⟨k, hk⟩ := hmem s (List.mem_append_right _ (List.mem_singleton_self s))
          have hlt : last < s.toTick := h.buffer.filed hk ▸ h.buffer.ahead hk last hl
          have hzero : s.fromTick = 0 := by simpa [GameState.isFull] using hfull
          exact hgo last hl ⟨GameState.chainsFrom_iff.mpr ⟨hzero ▸ UInt32.zero_le, hlt⟩, trivial⟩
      · exact hgo last hl hf
    · rcases List.mem_append.mp hx with hx | hx
      · exact h.applied x hx
      · obtain ⟨k, hk⟩ := hmem x hx
        exact ⟨h.held hk, h.buffer.wellFormed hk⟩

theorem Sound.step {c : Course} (h : c.Sound) : ∀ op, (c.step op).Sound
  | .add s origin => h.add s origin
  | .select clock => h.select clock
  | .setExtrapolation _ => ⟨⟨h.buffer.filed, h.buffer.wellFormed, h.buffer.ahead, h.buffer.bounded⟩, h.held, h.last,
      h.gapFree, h.applied⟩
  | .setMinSize _ => ⟨⟨h.buffer.filed, h.buffer.wellFormed, h.buffer.ahead, h.buffer.bounded⟩, h.held, h.last,
      h.gapFree, h.applied⟩
  | .reset => sound_create c.buffer.settings

theorem sound_run (settings : BufferSettings) (ops : List Operation) : (run settings ops).Sound := by
  suffices hfold : ∀ c : Course, c.Sound → (ops.foldl Course.step c).Sound from hfold _ (sound_create settings)
  induction ops with
  | nil => exact fun _ h => h
  | cons op ops ih => exact fun c h => ih _ (h.step op)

/-! ### Every run -/

theorem maxSize_step (c : Course) (op : Operation) :
    (c.step op).buffer.settings.maxSize = c.buffer.settings.maxSize := by
  cases op with
  | add s origin =>
    cases ha : c.buffer.accepts s with
    | false => simp only [step, StateBuffer.add_of_not_accepts ha]
    | true => simp only [step, StateBuffer.add_of_accepts ha]; rfl
  | select clock => exact congrArg _ (c.buffer.select_selects clock).settings_eq
  | setExtrapolation on => rfl
  | setMinSize n => rfl
  | reset => rfl

theorem maxSize_run (settings : BufferSettings) (ops : List Operation) :
    (run settings ops).buffer.settings.maxSize = settings.maxSize := by
  suffices hfold : ∀ c : Course, (ops.foldl Course.step c).buffer.settings.maxSize = c.buffer.settings.maxSize from
    hfold (create settings)
  induction ops with
  | nil => exact fun _ => rfl
  | cons op ops ih => exact fun c => (ih _).trans (maxSize_step c op)

/-- Since the last reset a full state was applied first, the ticks went strictly up, and each delta covered the
    tick applied before it. All that was applied had been taken in as it is; the buffer knows the last of it, and
    holds no more states than it may, each under its own tick and none that is outdated. -/
theorem applied_gapFree (settings : BufferSettings) (ops : List Operation) :
    (∀ s ∈ (run settings ops).applied.head?, s.isFull = true) ∧
    (run settings ops).applied.Pairwise (fun p s => p.toTick < s.toTick) ∧
    (run settings ops).applied.IsChain
      (fun p s => s.isFull = false → s.fromTick ≤ p.toTick ∧ p.toTick < s.toTick) ∧
    (∀ s ∈ (run settings ops).applied,
      s ∈ (run settings ops).accepted ∧ s.extrapolated = false ∧ s.fromTick < s.toTick) ∧
    (run settings ops).buffer.lastApplied = (run settings ops).applied.getLast? ∧
    (run settings ops).buffer.size ≤ settings.maxSize ∧
    ∀ k s, (run settings ops).buffer.held.get? k = some s →
      s.toTick = k ∧ ∀ p ∈ (run settings ops).applied.getLast?, p.toTick < k := by
  have h := sound_run settings ops
  refine ⟨h.gapFree.first, h.gapFree.increasing, h.gapFree.chained.imp fun p s hs _ => GameState.chainsFrom_iff.mp hs,
    fun s hs => ?_, h.last, maxSize_run settings ops ▸ h.buffer.bounded, fun k s hs => ⟨h.buffer.filed hs, ?_⟩⟩
  · obtain ⟨hacc, hwf⟩ := h.applied s hs
    exact ⟨hacc, StateBuffer.isWellFormed_iff.mp hwf⟩
  · intro p hp
    refine h.buffer.ahead hs p.toTick ?_
    rw [StateBuffer.lastTick, h.last, Option.mem_def.mp hp]
    rfl

end Course
end StateSync
