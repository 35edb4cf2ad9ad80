import StateSync.Proofs.State.Course
import StateSync.Proofs.State.Snapshot

/-! A client that is sent full states and deltas of a server's history. A delta may be folded into the view of a
    state newer than its base; what it leaves out is then as it was in that state, not as it was in the base.
    So the client's view is sure to be that of the last state applied exactly if no entity of the history ever
    comes back to what it was after it has been something else (`view_eq_iff_steady`). -/

namespace StateSync

/-- At each tick from the first one on a history has a full state of just that tick. -/
structure IsHistory (H : UInt32 → GameState) : Prop where
  full : ∀ {t}, 1 ≤ t → (H t).isFull = true
  real : ∀ {t}, 1 ≤ t → (H t).extrapolated = false
  deletions : ∀ {t}, 1 ≤ t → (H t).deletions = []
  distinct : ∀ {t}, 1 ≤ t → ((H t).entities.map (·.uid)).Nodup
  tick : ∀ {t}, 1 ≤ t → (H t).toTick = t

/-- The entities of a history at a tick. -/
def shownAt (H : UInt32 → GameState) (t : UInt32) : EntityView := .ofEntities (H t).entities

/-- What a server sends: a state of the history, or a delta between two. -/
inductive SentFrom (H : UInt32 → GameState) : GameState → Prop where
  | full {t : UInt32} : 1 ≤ t → SentFrom H (H t)
  | delta {b t : UInt32} : 1 ≤ b → b < t → SentFrom H (.deltaFrom (H b) (H t))

/-- No entity is at a later tick what it was at an earlier one and something else in between. -/
def Steady (H : UInt32 → GameState) : Prop :=
  ∀ b l t uid, 1 ≤ b → b < l → l < t → (shownAt H b).get? uid = (shownAt H t).get? uid →
    (shownAt H l).get? uid = (shownAt H t).get? uid

section
variable {H : UInt32 → GameState} {s : GameState} {b t last : UInt32} {v : EntityView}

/-! ### Folding what was sent -/

theorem IsHistory.snapshot (hH : IsHistory H) (ht : 1 ≤ t) : (H t).IsSnapshot :=
  ⟨hH.full ht, hH.real ht, hH.deletions ht⟩

theorem IsHistory.applyTo (hH : IsHistory H) (ht : 1 ≤ t) (v : EntityView) : (H t).applyTo v = shownAt H t :=
  (hH.snapshot ht).applyTo v

theorem IsHistory.get?_applyTo_delta (hH : IsHistory H) (hb : 1 ≤ b) (ht : 1 ≤ t) (v : EntityView) (uid : UInt32) :
    ((GameState.deltaFrom (H b) (H t)).applyTo v).get? uid =
      if (shownAt H b).get? uid = (shownAt H t).get? uid then v.get? uid else (shownAt H t).get? uid :=
  GameState.get?_applyTo_deltaFrom (hH.distinct ht) (by rw [hH.tick hb]; exact ne_zero_of_one_le hb) v uid

theorem SentFrom.applyTo_of_isFull (hH : IsHistory H) (h : SentFrom H s) (hs : s.isFull = true) (v : EntityView) :
    s.applyTo v = shownAt H s.toTick := by
  cases h with
  | full ht => rw [hH.applyTo ht, hH.tick ht]
  | @delta b t hb hbt => exact absurd (hH.tick hb ▸ of_decide_eq_true hs) (ne_zero_of_one_le hb)

/-- In a steady history every state that leaves no gap brings the view of the last state to its own. -/
theorem SentFrom.applyTo (hH : IsHistory H) (hsteady : Steady H) (h : SentFrom H s) (hs : s.chainsFrom last = true) :
    s.applyTo (shownAt H last) = shownAt H s.toTick := by
  cases h with
  | full ht => rw [hH.applyTo ht, hH.tick ht]
  | @delta b t hb hbt =>
    have ht := UInt32.le_of_lt (UInt32.lt_of_le_of_lt hb hbt)
    obtain ⟨hfrom, hto⟩ := GameState.chainsFrom_iff.mp hs
    have hfrom : b ≤ last := hH.tick hb ▸ hfrom
    have hto : last < t := hH.tick ht ▸ hto
    show _ = shownAt H (H t).toTick
    rw [hH.tick ht]
    refine SortedMap.ext_get? fun uid => ?_
    rw [hH.get?_applyTo_delta hb ht]
    by_cases heq : (shownAt H b).get? uid = (shownAt H t).get? uid
    · rw [if_pos heq]
      -- What the delta leaves out has not changed since its base, so it has not changed since `last`.
      rcases UInt32.lt_or_eq_of_le hfrom with hlt | rfl
      · exact hsteady b last t uid hb hlt hto heq
      · exact heq
    · rw [if_neg heq]

end

namespace Course
variable {H : UInt32 → GameState} {c : Course}

/-- A run in which the client takes in what was sent, and selects. -/
def Streamed (H : UInt32 → GameState) (ops : List Operation) : Prop :=
  ∀ op ∈ ops, (∃ s origin, op = .add s origin ∧ SentFrom H s) ∨ ∃ clock, op = .select clock

/-- All that was taken in was sent, and the view is that of the last state applied. -/
structure Shows (H : UInt32 → GameState) (c : Course) : Prop where
  sent : ∀ s ∈ c.accepted, SentFrom H s
  view : ∀ last ∈ c.buffer.lastTick, c.view = shownAt H last

theorem foldl_follows (hH : IsHistory H) (hsteady : Steady H) {chain : List GameState} {last : UInt32} {s : GameState}
    (hsent : ∀ x ∈ chain ++ [s], SentFrom H x) (hf : Follows last (chain ++ [s])) :
    (chain ++ [s]).foldl (fun v x => x.applyTo v) (shownAt H last) = shownAt H s.toTick := by
  induction chain generalizing last with
  | nil => exact (hsent s (List.mem_singleton_self s)).applyTo hH hsteady hf.1
  | cons x chain ih =>
    rw [List.cons_append, List.foldl_cons, (hsent x List.mem_cons_self).applyTo hH hsteady hf.1]
    exact ih (fun y hy => hsent y (List.mem_cons_of_mem _ hy)) hf.2

theorem Shows.add (h : Shows H c) {s : GameState} (hs : SentFrom H s) (origin : Nat) :
    Shows H (c.step (.add s origin)) := by
  cases ha : c.buffer.accepts s with
  | false =>
    simp only [step, StateBuffer.add_of_not_accepts ha]
    exact h
  | true =>
    simp only [step, StateBuffer.add_of_accepts ha, if_true]
    refine ⟨fun x hx => ?_, h.view⟩
    rcases List.mem_append.mp hx with hx | hx
    · exact h.sent x hx
    · obtain rfl := List.mem_singleton.mp hx
      exact hs

theorem Shows.select (hH : IsHistory H) (hsteady : Steady H) (hc : c.Sound) (h : Shows H c) (clock : UInt32) :
    Shows H (c.step (.select clock)) := by
  refine ⟨h.sent, ?_⟩
  obtain ⟨hrec, ⟨hnone, hsame⟩ | ⟨chain, s, hsome, happ, hmem, hleads⟩⟩ :=
    select_outcome hc.buffer (c.buffer.select_selects clock)
  · simp only [step, hrec, hnone, hsame]
    exact h.view
  · simp only [step, hrec, hsome, happ]
    have hsent : ∀ x ∈ chain ++ [s], SentFrom H x := by
      intro x hx
      obtain ⟨k, hk⟩ := hmem x hx
      exact h.sent x (hc.held hk)
    intro last hlast
    obtain rfl : s.toTick = last := Option.some.inj hlast
    rcases hleads with ⟨rfl, hfull⟩ | ⟨p, hp, hf⟩
    · exact (hsent s (List.mem_singleton_self s)).applyTo_of_isFull hH hfull _
    · rw [h.view p hp]
      exact foldl_follows hH hsteady hsent hf

/-- In a steady history the view of every streamed run is that of the last state applied. -/
theorem shows_run (hH : IsHistory H) (hsteady : Steady H) (settings : BufferSettings) {ops : List Operation}
    (hops : Streamed H ops) : Shows H (run settings ops) := by
  suffices hfold : ∀ c : Course, c.Sound → Shows H c → Shows H (ops.foldl Course.step c) from
    hfold _ (sound_create settings) ⟨fun _ h => (nomatch h), fun _ h => (nomatch h)⟩
  induction ops with
  | nil => exact fun _ _ h => h
  | cons op ops ih =>
    intro c hc h
    refine ih (fun o ho => hops o (List.mem_cons_of_mem _ ho)) _ (hc.step op) ?_
    rcases hops op List.mem_cons_self with ⟨s, origin, rfl, hs⟩ | ⟨clock, rfl⟩
    · exact h.add hs origin
    · exact h.select hH hsteady hc clock

/-- The state that a selection gives as the current one, unless it is a placeholder, becomes the last one
    applied. -/
theorem lastTick_of_current (hc : c.Sound) {clock : UInt32} {current : GameState}
    (hcur : (c.buffer.select clock).1.current = some current) (hreal : current.extrapolated = false) :
    (c.step (.select clock)).buffer.lastTick = some current.toTick := by
  have hrec : (c.buffer.select clock).1.received = (c.buffer.select clock).1.catchUp ++ [current] := by
    simp [Selection.received, hcur, hreal]
  obtain ⟨hout, ⟨hnone, -⟩ | ⟨chain, s, hsome, happ, -⟩⟩ :=
    select_outcome hc.buffer (c.buffer.select_selects clock)
  · rw [hout, hnone] at hrec
    exact absurd hrec.symm (by simp)
  · have hlast : some s = some current := by
      rw [← List.getLast?_concat (l := chain), ← List.getLast?_concat (l := (c.buffer.select clock).1.catchUp),
        ← hsome, ← hout, hrec]
    obtain rfl := Option.some.inj hlast
    simp only [step, happ]
    rfl

/-! ### A history that is not steady -/

/-- A full state comes and is applied, and then a delta that leaves no gap behind it. -/
theorem select_delta_after_full {f d : GameState} (hf : f.isFull = true) (hfw : StateBuffer.isWellFormed f = true)
    (hd : d.isFull = false) (hdw : StateBuffer.isWellFormed d = true) (hfd : d.chainsFrom f.toTick = true) :
    let c := run { minSize := 1 } [.add f 0, .select f.toTick, .add d 0]
    (c.buffer.select d.toTick).1.current = some d ∧
      (c.step (.select d.toTick)).view = d.applyTo (f.applyTo .empty) := by
  have hlate : ¬ d.toTick ≤ f.toTick := UInt32.not_le.mpr (GameState.chainsFrom_iff.mp hfd).2
  have hfx := (StateBuffer.isWellFormed_iff.mp hfw).1
  have hdx := (StateBuffer.isWellFormed_iff.mp hdw).1
  simp [run, step, create, StateBuffer.create, StateBuffer.add, StateBuffer.accepts, StateBuffer.isLate,
    StateBuffer.isSuperseded, StateBuffer.lastTick, StateBuffer.hold, StateBuffer.select, StateBuffer.selectFirst,
    StateBuffer.size, StateBuffer.primer, StateBuffer.fullStates, StateBuffer.applyFull, StateBuffer.apply,
    StateBuffer.selectNext, StateBuffer.chainFrom, StateBuffer.chainIn, StateBuffer.applyChain, Selection.chosen,
    Selection.received, SortedMap.insert, SortedMap.put, SortedMap.greatest, SortedMap.empty, SortedMap.size,
    SortedMap.get?, SortedMap.lookup, SortedMap.values, SortedMap.above, SortedMap.filterKeys, hf, hfw, hfx, hd, hdw,
    hdx, hfd, hlate]

/-- After every selection of a streamed run that is no placeholder the view is that of the state selected, for all
    runs there are, exactly if the history is steady. -/
theorem view_eq_iff_steady (hH : IsHistory H) :
    (∀ settings ops clock current, Streamed H ops → ((run settings ops).buffer.select clock).1.current = some current →
      current.extrapolated = false → ((run settings ops).step (.select clock)).view = shownAt H current.toTick) ↔
    Steady H := by
  constructor
  · intro h b l t uid hb hbl hlt heq
    have hl : 1 ≤ l := UInt32.le_of_lt (UInt32.lt_of_le_of_lt hb hbl)
    have ht : 1 ≤ t := UInt32.le_of_lt (UInt32.lt_of_le_of_lt hl hlt)
    have hbt : b < t := UInt32.lt_trans hbl hlt
    -- The state at `l` is applied, and then the delta from `b` to `t`.
    have hfrom : (GameState.deltaFrom (H b) (H t)).fromTick = b := hH.tick hb
    have hto : (GameState.deltaFrom (H b) (H t)).toTick = t := hH.tick ht
    have hzero : (H l).fromTick = 0 := of_decide_eq_true (hH.full hl)
    obtain ⟨hcur, hview⟩ := select_delta_after_full (f := H l) (d := .deltaFrom (H b) (H t)) (hH.full hl)
      (StateBuffer.isWellFormed_iff.mpr
        ⟨hH.real hl, by rw [hzero, hH.tick hl]; exact UInt32.lt_of_lt_of_le (by decide) hl⟩)
      (by rw [GameState.isFull, hfrom]; exact decide_eq_false (ne_zero_of_one_le hb))
      (StateBuffer.isWellFormed_iff.mpr ⟨rfl, by rw [hfrom, hto]; exact hbt⟩)
      (GameState.chainsFrom_iff.mpr
        ⟨by rw [hfrom, hH.tick hl]; exact UInt32.le_of_lt hbl, by rw [hto, hH.tick hl]; exact hlt⟩)
    have hops : Streamed H [.add (H l) 0, .select (H l).toTick, .add (.deltaFrom (H b) (H t)) 0] := by
      intro op hop
      simp only [List.mem_cons, List.not_mem_nil, or_false] at hop
      rcases hop with rfl | rfl | rfl
      · exact Or.inl ⟨_, 0, rfl, .full hl⟩
      · exact Or.inr ⟨_, rfl⟩
      · exact Or.inl ⟨_, 0, rfl, .delta hb hbt⟩
    have heval := h _ _ _ _ hops hcur rfl
    rw [hview, hto] at heval
    have huid : SortedMap.get? _ uid = SortedMap.get? _ uid := congrArg (SortedMap.get? · uid) heval
    rw [hH.get?_applyTo_delta hb ht, if_pos heq, hH.applyTo hl] at huid
    exact huid
  · intro hsteady settings ops clock current hops hcur hreal
    have hc := sound_run settings ops
    exact ((shows_run hH hsteady settings hops).select hH hsteady hc clock).view _ (lastTick_of_current hc hcur hreal)

/-- A history of one entity that is the same at every other tick. -/
def blink (t : UInt32) : GameState := { GameState.full t with entities := [⟨1, [⟨0, [(t % 2).toUInt8]⟩]⟩] }

theorem isHistory_blink : IsHistory blink where
  full _ := rfl
  real _ := rfl
  deletions _ := rfl
  distinct _ := List.nodup_singleton 1
  tick _ := rfl

theorem not_steady_blink : ¬ Steady blink := fun h =>
  absurd (h 1 2 3 1 (by decide) (by decide) (by decide) (by decide)) (by decide)

/-- Some streamed run of the blinking entity leaves the client with a view of no state that was selected. -/
theorem view_of_blink_not_always_eq : IsHistory blink ∧
    ¬ ∀ settings ops clock current, Streamed blink ops →
      ((run settings ops).buffer.select clock).1.current = some current → current.extrapolated = false →
      ((run settings ops).step (.select clock)).view = shownAt blink current.toTick :=
  ⟨isHistory_blink, fun h => not_steady_blink ((view_eq_iff_steady isHistory_blink).mp h)⟩

/-- The delta from tick 1 to tick 3, where the entity is the same, comes to a client that has applied tick 2. -/
theorem view_of_blink_stale :
    let c := run {} [.add (blink 1) 0, .add (.deltaFrom (blink 1) (blink 2)) 0,
      .add (.deltaFrom (blink 1) (blink 3)) 0, .select 1, .select 2]
    (c.buffer.select 3).1.current = some (.deltaFrom (blink 1) (blink 3)) ∧
      (c.step (.select 3)).view = shownAt blink 2 ∧ (c.step (.select 3)).view ≠ shownAt blink 3 := by
  decide

end Course
end StateSync
