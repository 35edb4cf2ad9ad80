import Mathlib.Data.List.Induction
import Mathlib.Data.List.Range
import Mathlib.Order.Bounds.Defs
import StateSync.Demo.World
import StateSync.Proofs.State.Snapshot

/-! What a world keeps and sends. After any calls it keeps the states of its latest 64 ticks (`Recalls`), and for each
    client the greatest tick that it has acknowledged since it was last forgotten (`Notes`). If the state of that tick
    is kept and lies behind the current one, the client is sent a delta that brings it from there to the current state.
    Any other client is sent the current state itself (`run_stateFor`). -/

namespace StateSync

namespace Mover

theorem uid_step (m : Mover) : m.step.uid = m.uid := rfl

theorem uid_iterate (t : Nat) (m : Mover) : (step^[t] m).uid = m.uid := by
  induction t generalizing m with
  | zero => rfl
  | succ t ih => rw [Function.iterate_succ_apply, ih, uid_step]

end Mover

/-- The delta between two snapshots brings the view of the earlier one to that of the later. -/
theorem GameState.IsSnapshot.applyTo_after {base current : GameState} (hbase : base.IsSnapshot)
    (htick : base.toTick ≠ 0) (huids : (current.entities.map (·.uid)).Nodup) (v : EntityView) :
    (deltaFrom base current).applyTo (base.applyTo v) = EntityView.ofEntities current.entities := by
  refine SortedMap.ext_get? fun uid => ?_
  rw [get?_applyTo_deltaFrom huids htick, hbase.applyTo]
  split
  · rename_i hsame
    exact hsame
  · rfl

namespace World
variable {w : World} {n k : Nat} {id : ConnectionId} {t : UInt32} {s : GameState}

/-! ### Calls -/

inductive Call where
  | step
  | ack (id : ConnectionId) (tick : UInt32)
  | forget (id : ConnectionId)
  deriving DecidableEq, Repr

variable {c : Call} {cs : List Call}

def Call.isStep : Call → Bool
  | .step => true
  | _ => false

def perform (w : World) : Call → World
  | .step => w.step
  | .ack id tick => w.ack id tick
  | .forget id => w.forget id

/-- A world of `n` movers after calls. -/
def run (n : Nat) (cs : List Call) : World := cs.foldl perform (create n)

def steps (cs : List Call) : Nat := cs.countP (·.isStep)

/-- The client has acknowledged the tick, and it has not been forgotten since. -/
def Acked (id : ConnectionId) (cs : List Call) (t : UInt32) : Prop :=
  ∃ before after, cs = before ++ .ack id t :: after ∧ Call.forget id ∉ after

theorem run_concat (n : Nat) (cs : List Call) (c : Call) : run n (cs ++ [c]) = (run n cs).perform c :=
  List.foldl_concat ..

/-! ### Acknowledgements -/

theorem acked_concat_iff : Acked id (cs ++ [c]) t ↔ c = .ack id t ∨ c ≠ .forget id ∧ Acked id cs t := by
  constructor
  · rintro ⟨before, after, heq, hkept⟩
    rcases List.eq_nil_or_concat after with rfl | ⟨after, d, rfl⟩
    · exact Or.inl (List.head_eq_of_cons_eq (List.append_inj' heq rfl).2)
    · rw [List.concat_eq_append] at heq hkept
      rw [← List.cons_append, ← List.append_assoc] at heq
      obtain ⟨rfl, hlast⟩ := List.append_inj' heq rfl
      obtain rfl := List.head_eq_of_cons_eq hlast
      refine Or.inr ⟨?_, before, after, rfl, fun h => hkept (List.mem_append_left _ h)⟩
      rintro rfl
      exact hkept (List.mem_append_right _ (List.mem_singleton_self _))
  · rintro (rfl | ⟨hc, before, after, rfl, hkept⟩)
    · exact ⟨cs, [], rfl, List.not_mem_nil⟩
    · refine ⟨before, after ++ [c], by simp, fun h => ?_⟩
      rcases List.mem_append.mp h with h | h
      · exact hkept h
      · exact hc (List.mem_singleton.mp h).symm

theorem not_acked_nil : ¬ Acked id [] t := by
  rintro ⟨before, after, heq, -⟩
  exact List.append_ne_nil_of_right_ne_nil before (List.cons_ne_nil _ after) heq.symm

/-- The world has noted the greatest tick that the client has acknowledged, if it has acknowledged any. -/
structure Notes (w : World) (id : ConnectionId) (cs : List Call) : Prop where
  silent : w.acked.get? id = none → ∀ t, ¬ Acked id cs t
  greatest : ∀ {t}, w.acked.get? id = some t → IsGreatest {u | Acked id cs u} t

/-- A call that is neither an acknowledgement of the client nor the end of it changes nothing for it. -/
theorem Notes.other (h : w.Notes id cs) {w' : World} (hacked : w'.acked.get? id = w.acked.get? id)
    (hack : ∀ t, c ≠ .ack id t) (hforget : c ≠ .forget id) : w'.Notes id (cs ++ [c]) := by
  have hset : ∀ u, Acked id (cs ++ [c]) u ↔ Acked id cs u := fun u => by simp [acked_concat_iff, hack u, hforget]
  refine ⟨fun hnone u => ?_, fun hsome => ?_⟩
  · rw [hset]
    exact h.silent (hacked ▸ hnone) u
  · simp only [hset]
    exact h.greatest (hacked ▸ hsome)

theorem Notes.ack (h : w.Notes id cs) (t : UInt32) : (w.ack id t).Notes id (cs ++ [.ack id t]) := by
  have hget : (w.ack id t).acked.get? id =
      some (if (w.acked.get? id).getD 0 ≤ t then t else (w.acked.get? id).getD 0) := by
    rw [World.ack, Assoc.get?_insert, if_pos rfl]
    rfl
  refine ⟨fun hnone => absurd (hnone.symm.trans hget) nofun, fun {t'} hsome => ?_⟩
  obtain rfl := Option.some.inj (hget.symm.trans hsome)
  have hset : ∀ u, Acked id (cs ++ [.ack id t]) u ↔ u = t ∨ Acked id cs u := fun u => by
    simp [acked_concat_iff, eq_comm]
  cases hold : w.acked.get? id with
  | none =>
    rw [Option.getD_none, if_pos UInt32.zero_le]
    refine ⟨(hset t).mpr (Or.inl rfl), fun u hu => ?_⟩
    obtain rfl := ((hset u).mp hu).resolve_right (h.silent hold u)
    exact UInt32.le_refl u
  | some last =>
    obtain ⟨hmem, hbound⟩ := h.greatest hold
    rw [Option.getD_some]
    by_cases hle : last ≤ t
    · rw [if_pos hle]
      refine ⟨(hset t).mpr (Or.inl rfl), fun u hu => ?_⟩
      rcases (hset u).mp hu with rfl | hu
      · exact UInt32.le_refl u
      · exact UInt32.le_trans (hbound hu) hle
    · rw [if_neg hle]
      refine ⟨(hset last).mpr (Or.inr hmem), fun u hu => ?_⟩
      rcases (hset u).mp hu with rfl | hu
      · exact UInt32.le_of_lt (UInt32.not_le.mp hle)
      · exact hbound hu

theorem Notes.forget (w : World) (id : ConnectionId) (cs : List Call) :
    (w.forget id).Notes id (cs ++ [.forget id]) := by
  have hget : (w.forget id).acked.get? id = none := by
    rw [World.forget, Assoc.get?_erase, if_pos rfl]
  exact ⟨fun _ u => by simp [acked_concat_iff], fun hsome => absurd (hget.symm.trans hsome) nofun⟩

theorem Notes.perform (h : w.Notes id cs) (c : Call) : (w.perform c).Notes id (cs ++ [c]) := by
  cases c with
  | step => exact h.other rfl nofun nofun
  | ack id' t =>
    by_cases hid : id' = id
    · subst hid
      exact h.ack t
    · have hacked : (w.ack id' t).acked.get? id = w.acked.get? id := by
        rw [World.ack, Assoc.get?_insert, if_neg hid]
      exact h.other hacked (fun u hu => hid (Call.ack.inj hu).1) nofun
  | forget id' =>
    by_cases hid : id' = id
    · subst hid
      exact Notes.forget w id' cs
    · have hacked : (w.forget id').acked.get? id = w.acked.get? id := by
        rw [World.forget, Assoc.get?_erase, if_neg hid]
      exact h.other hacked nofun fun hu => hid (Call.forget.inj hu)

theorem notes_run (n : Nat) (cs : List Call) (id : ConnectionId) : (run n cs).Notes id cs := by
  induction cs using List.reverseRecOn with
  | nil => exact ⟨fun _ _ => not_acked_nil, nofun⟩
  | append_singleton cs c ih =>
    rw [run_concat]
    exact ih.perform c

theorem Notes.get?_acked_iff (h : w.Notes id cs) : w.acked.get? id = some t ↔ IsGreatest {u | Acked id cs u} t := by
  refine ⟨h.greatest, fun ht => ?_⟩
  cases hget : w.acked.get? id with
  | none => exact absurd ht.1 (h.silent hget t)
  | some last =>
    have hlast := h.greatest hget
    rw [UInt32.le_antisymm (ht.2 hlast.1) (hlast.2 ht.1)]

/-! ### States that are kept -/

/-- The movers of a world after `t` ticks. -/
def moversAt (n t : Nat) : List Mover := (uids n).map fun uid => Mover.step^[t] (Mover.create uid)

/-- The full state of a tick. -/
def stateAt (n : Nat) : Nat → GameState
  | 0 => .full 0
  | t + 1 => snapshot (UInt32.ofNat (t + 1)) (moversAt n (t + 1))

theorem moversAt_succ (n t : Nat) : moversAt n (t + 1) = (moversAt n t).map (·.step) := by
  rw [moversAt, moversAt, List.map_map]
  exact List.map_congr_left fun uid _ => Function.iterate_succ_apply' Mover.step t (Mover.create uid)

theorem toTick_stateAt (n t : Nat) : (stateAt n t).toTick = UInt32.ofNat t := by
  cases t <;> rfl

theorem isSnapshot_stateAt (n t : Nat) : (stateAt n t).IsSnapshot := by
  cases t <;> exact ⟨rfl, rfl, rfl⟩

theorem nodup_uids (hn : n < UInt32.size) : (uids n).Nodup := by
  refine List.Nodup.map_on (fun i hi j hj heq => ?_) List.nodup_range
  have hi := List.mem_range.mp hi
  have hj := List.mem_range.mp hj
  have hnat := congrArg UInt32.toNat heq
  rw [UInt32.toNat_ofNat_of_lt' (by omega), UInt32.toNat_ofNat_of_lt' (by omega)] at hnat
  exact Nat.succ.inj hnat

theorem nodup_stateAt (hn : n < UInt32.size) (t : Nat) : ((stateAt n t).entities.map (·.uid)).Nodup := by
  cases t with
  | zero => exact List.nodup_nil
  | succ t =>
    have huids : (stateAt n (t + 1)).entities.map (·.uid) = uids n := by
      simp only [stateAt, snapshot, moversAt, List.map_map]
      exact (List.map_congr_left fun uid _ => Mover.uid_iterate (t + 1) (Mover.create uid)).trans (List.map_id _)
    rw [huids]
    exact nodup_uids hn

theorem toNat_oldest (t : UInt32) : (oldest t).toNat = t.toNat - 64 := by
  have hwindow : historyTicks.toNat = 64 := rfl
  unfold oldest
  split
  · rename_i hlt
    have hlt := UInt32.lt_iff_toNat_lt.mp hlt
    rw [UInt32.toNat_zero]
    omega
  · rename_i hge
    rw [UInt32.toNat_sub_of_le _ _ (UInt32.not_lt.mp hge), hwindow]

/-- The world is what it is after `k` ticks, and it keeps the states of the latest 64 of them. -/
structure Recalls (w : World) (n k : Nat) : Prop where
  tick : w.tick = UInt32.ofNat k
  movers : w.movers = moversAt n k
  current : w.current = stateAt n k
  history : ∀ {t x}, w.history.get? t = some x ↔
    max 1 (k - 63) ≤ t.toNat ∧ t.toNat ≤ k ∧ x = stateAt n t.toNat

theorem recalls_create (n : Nat) : (create n).Recalls n 0 where
  tick := rfl
  movers := rfl
  current := rfl
  history {t x} := by
    refine ⟨nofun, fun ⟨hfirst, hlast, _⟩ => ?_⟩
    omega

theorem Recalls.step (h : w.Recalls n k) (hk : k + 1 < UInt32.size) : w.step.Recalls n (k + 1) := by
  have htick : w.tick + 1 = UInt32.ofNat (k + 1) := by rw [h.tick, UInt32.ofNat_add]; rfl
  have hmovers : w.movers.map (·.step) = moversAt n (k + 1) := by rw [h.movers, moversAt_succ]
  have hstate : snapshot (w.tick + 1) (w.movers.map (·.step)) = stateAt n (k + 1) := by rw [htick, hmovers]; rfl
  have hnat : (w.tick + 1).toNat = k + 1 := by rw [htick, UInt32.toNat_ofNat_of_lt' hk]
  refine ⟨htick, hmovers, hstate, fun {t x} => ?_⟩
  have hget : w.step.history.get? t = if oldest (w.tick + 1) < t then
      if w.tick + 1 = t then some (stateAt n (k + 1)) else w.history.get? t else none := by
    rw [World.step, SortedMap.get?_above, SortedMap.get?_insert, hstate]
  have hkept : oldest (w.tick + 1) < t ↔ k - 63 < t.toNat := by
    rw [UInt32.lt_iff_toNat_lt, toNat_oldest, hnat, Nat.add_sub_add_right]
  rw [hget, if_congr hkept rfl rfl]
  by_cases hnew : w.tick + 1 = t
  · have ht : t.toNat = k + 1 := hnew ▸ hnat
    rw [if_pos (by omega), if_pos hnew, ht, Option.some.injEq]
    exact ⟨fun hx => ⟨by omega, le_refl _, hx.symm⟩, fun hx => hx.2.2.symm⟩
  · have hne : t.toNat ≠ k + 1 := fun ht => hnew (UInt32.toNat_inj.mp (hnat.trans ht.symm))
    rw [if_neg hnew]
    split
    · rw [h.history]
      exact ⟨fun ⟨_, hlast, hx⟩ => ⟨by omega, by omega, hx⟩, fun ⟨_, hlast, hx⟩ => ⟨by omega, by omega, hx⟩⟩
    · refine ⟨nofun, fun ⟨hfirst, _⟩ => ?_⟩
      omega

theorem recalls_run (n : Nat) (cs : List Call) (hsteps : steps cs < UInt32.size) :
    (run n cs).Recalls n (steps cs) := by
  induction cs using List.reverseRecOn with
  | nil => exact recalls_create n
  | append_singleton cs c ih =>
    have hsum : steps (cs ++ [c]) = steps cs + if c.isStep then 1 else 0 := by
      rw [steps, List.countP_append, List.countP_singleton, steps]
    rw [hsum] at hsteps ⊢
    have hrun := ih (by omega)
    rw [run_concat]
    cases c with
    | step => exact hrun.step hsteps
    | ack id t => exact ⟨hrun.tick, hrun.movers, hrun.current, hrun.history⟩
    | forget id => exact ⟨hrun.tick, hrun.movers, hrun.current, hrun.history⟩

/-! ### States that are sent -/

/-- The state is kept for the greatest tick that the client has acknowledged, and lies behind the current one. -/
structure IsBase (w : World) (id : ConnectionId) (cs : List Call) (t : UInt32) (base : GameState) : Prop where
  greatest : IsGreatest {u | Acked id cs u} t
  kept : w.history.get? t = some base
  behind : t < w.tick

section
variable {base : GameState}

theorem Recalls.toTick_of_kept (h : w.Recalls n k) (hkept : w.history.get? t = some base) : base.toTick = t := by
  rw [(h.history.mp hkept).2.2, toTick_stateAt, UInt32.ofNat_toNat]

theorem Recalls.base?_eq_some_iff (h : w.Recalls n k) (hnotes : w.Notes id cs) :
    w.base? id = some base ↔ ∃ t, w.IsBase id cs t base := by
  have hcurrent : w.current.toTick = w.tick := by rw [h.current, toTick_stateAt, h.tick]
  rw [base?, Option.filter_eq_some_iff, Option.bind_eq_some_iff, decide_eq_true_iff, hcurrent]
  constructor
  · rintro ⟨⟨t, hacked, hkept⟩, hbehind⟩
    rw [h.toTick_of_kept hkept] at hbehind
    exact ⟨t, hnotes.greatest hacked, hkept, hbehind⟩
  · rintro ⟨t, hgreatest, hkept, hbehind⟩
    rw [h.toTick_of_kept hkept]
    exact ⟨⟨t, hnotes.get?_acked_iff.mpr hgreatest, hkept⟩, hbehind⟩

/-- A client with a base is sent the delta from it. -/
theorem Recalls.stateFor_of_isBase (h : w.Recalls n k) (hn : n < UInt32.size) (hnotes : w.Notes id cs)
    (hbase : w.IsBase id cs t base) :
    (w.stateFor id).isFull = false ∧ (w.stateFor id).fromTick = t ∧
      ∀ v, (w.stateFor id).applyTo (base.applyTo v) = EntityView.ofEntities w.current.entities := by
  have hstate : w.stateFor id = base.deltaFrom w.current := by
    rw [stateFor, (h.base?_eq_some_iff hnotes).mpr ⟨t, hbase⟩]
  obtain ⟨hfirst, -, hx⟩ := h.history.mp hbase.kept
  have htick := h.toTick_of_kept hbase.kept
  have hne : base.toTick ≠ 0 := by
    rintro hzero
    rw [htick.symm.trans hzero, UInt32.toNat_zero] at hfirst
    omega
  have hsnapshot : base.IsSnapshot := hx ▸ isSnapshot_stateAt n t.toNat
  have huids : (w.current.entities.map (·.uid)).Nodup := h.current ▸ nodup_stateAt hn k
  rw [hstate]
  exact ⟨decide_eq_false hne, htick, hsnapshot.applyTo_after hne huids⟩

/-- One without is sent the current state. -/
theorem Recalls.stateFor_of_not_isBase (h : w.Recalls n k) (hnotes : w.Notes id cs)
    (hbase : ¬ ∃ t base, w.IsBase id cs t base) :
    w.stateFor id = w.current ∧ (w.stateFor id).isFull = true ∧
      ∀ v, (w.stateFor id).applyTo v = EntityView.ofEntities w.current.entities := by
  have hnone : w.base? id = none := Option.eq_none_iff_forall_ne_some.mpr fun base hb =>
    hbase (((h.base?_eq_some_iff hnotes).mp hb).imp fun t ht => ⟨base, ht⟩)
  have hstate : w.stateFor id = w.current := by rw [stateFor, hnone]
  have hsnapshot : w.current.IsSnapshot := h.current ▸ isSnapshot_stateAt n k
  rw [hstate]
  exact ⟨rfl, hsnapshot.full, hsnapshot.applyTo⟩

end

/-- After any calls a world keeps just the states of its latest 64 ticks. It sends a client a delta exactly if the state
    of the greatest tick that the client has acknowledged, since it was last forgotten, is kept and lies behind the
    current one. The delta then starts at that tick, and a client that shows the state of it comes to show the current
    one. Any other client is sent the current state, which it comes to show whatever it has shown before. -/
theorem run_stateFor (n : Nat) (cs : List Call) (hn : n < UInt32.size) (hsteps : steps cs < UInt32.size) :
    let w := run n cs
    w.tick.toNat = steps cs ∧ w.current = stateAt n (steps cs) ∧
    (∀ t x, w.history.get? t = some x ↔
      max 1 (steps cs - 63) ≤ t.toNat ∧ t.toNat ≤ steps cs ∧ x = stateAt n t.toNat) ∧
    ∀ id, ((w.stateFor id).isFull = false ↔ ∃ t base, w.IsBase id cs t base) ∧
      (∀ t base, w.IsBase id cs t base → (w.stateFor id).fromTick = t ∧
        ∀ v, (w.stateFor id).applyTo (base.applyTo v) = EntityView.ofEntities w.current.entities) ∧
      ((w.stateFor id).isFull = true → w.stateFor id = w.current ∧
        ∀ v, (w.stateFor id).applyTo v = EntityView.ofEntities w.current.entities) := by
  intro w
  have hrecalls := recalls_run n cs hsteps
  refine ⟨?_, hrecalls.current, fun t x => hrecalls.history, fun id => ?_⟩
  · rw [hrecalls.tick, UInt32.toNat_ofNat_of_lt' hsteps]
  have hnotes := notes_run n cs id
  by_cases hbase : ∃ t base, w.IsBase id cs t base
  · have hdelta : (w.stateFor id).isFull = false := by
      obtain ⟨t, base, hb⟩ := hbase
      exact (hrecalls.stateFor_of_isBase hn hnotes hb).1
    refine ⟨iff_of_true hdelta hbase, fun t base hb => ?_, fun hfull => ?_⟩
    · exact (hrecalls.stateFor_of_isBase hn hnotes hb).2
    · exact absurd (hdelta.symm.trans hfull) nofun
  · obtain ⟨hstate, hfull, hshows⟩ := hrecalls.stateFor_of_not_isBase hnotes hbase
    refine ⟨iff_of_false ?_ hbase, fun t base hb => absurd ⟨t, base, hb⟩ hbase, fun _ => ⟨hstate, hshows⟩⟩
    rw [hfull]
    nofun

/-- The first client has acknowledged the tick before the current one. The second has acknowledged one that is yet to
    come, which what it acknowledges later does not undo. -/
def twoSteps : List Call := [.step, .ack ⟨0⟩ 1, .step, .ack ⟨1⟩ 7, .ack ⟨1⟩ 1]

theorem run_stateFor_twoSteps :
    let w := run 2 twoSteps
    2 < UInt32.size ∧ steps twoSteps < UInt32.size ∧ w.tick.toNat = 2 ∧ w.history.get? 1 = some (stateAt 2 1) ∧
    (w.stateFor ⟨0⟩).isFull = false ∧ (w.stateFor ⟨0⟩).fromTick = 1 ∧ w.stateFor ⟨1⟩ = w.current ∧
    w.current = stateAt 2 2 := by
  intro w
  have hn : 2 < UInt32.size := by decide
  have hsteps : steps twoSteps < UInt32.size := by decide
  obtain ⟨htick, hcurrent, hhistory, hsends⟩ := run_stateFor 2 twoSteps hn hsteps
  have htick : w.tick.toNat = 2 := htick
  have hkept : w.history.get? 1 = some (stateAt 2 1) := (hhistory 1 _).mpr ⟨by decide, by decide, rfl⟩
  have hfirst : w.IsBase ⟨0⟩ twoSteps 1 (stateAt 2 1) :=
    ⟨(notes_run 2 twoSteps ⟨0⟩).greatest rfl, hkept, UInt32.lt_iff_toNat_lt.mpr (htick ▸ by decide)⟩
  have hsecond : ¬ ∃ t base, w.IsBase ⟨1⟩ twoSteps t base := by
    rintro ⟨t, base, hgreatest, -, hbehind⟩
    have hseven : (7 : UInt32) ≤ t := hgreatest.2 ⟨[.step, .ack ⟨0⟩ 1, .step], [.ack ⟨1⟩ 1], rfl, by decide⟩
    have hlt := UInt32.lt_iff_toNat_lt.mp (UInt32.lt_of_le_of_lt hseven hbehind)
    rw [htick] at hlt
    exact absurd hlt (by decide)
  obtain ⟨hdelta, hfrom, -⟩ := hsends ⟨0⟩
  obtain ⟨hdelta', -, hfull⟩ := hsends ⟨1⟩
  refine ⟨hn, hsteps, htick, hkept, hdelta.mpr ⟨1, _, hfirst⟩, (hfrom 1 _ hfirst).1, (hfull ?_).1, hcurrent⟩
  exact Bool.not_eq_false _ ▸ fun h => hsecond (hdelta'.mp h)

end World
end StateSync
