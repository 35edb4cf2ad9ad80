import StateSync.Proofs.Manager.Calls

/-! Which connection a manager holds for a peer of a transport (`at?`), by the handle of the transport. An event about
    a peer changes no other peer's connection. -/

namespace StateSync.Manager
variable {ι δ : Type} [DecidableEq ι] {m m' : Manager ι δ} {h k : ι} {p q : Peer} {i : Nat} {id j : ConnectionId}
  {c : Connection}

/-- The connection of a peer of a transport. -/
def at? (m : Manager ι δ) (h : ι) (p : Peer) : Option Connection :=
  (m.transports.idxOf? h).bind fun i => (m.connections.find? i p).bind m.connections.get?

theorem idxOf?_eq (hnodup : m.transports.Nodup) (hi : m.transports[i]? = some h) : m.transports.idxOf? h = some i := by
  obtain ⟨hlt, rfl⟩ := List.getElem?_eq_some_iff.mp hi
  refine List.idxOf?_eq_some_iff.mpr ⟨hlt, rfl, fun j hj heq => ?_⟩
  exact Nat.ne_of_lt hj ((List.getElem_inj hnodup).mp heq)

theorem Sound.at?_eq_some_iff (hm : m.Sound) (hnodup : m.transports.Nodup) :
    m.at? h p = some c ↔ ∃ id, m.connections.get? id = some c ∧ m.transportOf? c = some h ∧ c.peer = p := by
  constructor
  · intro hat
    obtain ⟨i, hi, hat⟩ := Option.bind_eq_some_iff.mp hat
    obtain ⟨id, hf, hget⟩ := Option.bind_eq_some_iff.mp hat
    obtain ⟨x, hx, rfl, rfl⟩ := (hm id).found hf
    obtain rfl := Option.some.inj (hget.symm.trans hx)
    obtain ⟨hlt, hh, -⟩ := List.idxOf?_eq_some_iff.mp hi
    exact ⟨id, hget, List.getElem?_eq_some_iff.mpr ⟨hlt, hh⟩, rfl⟩
  · rintro ⟨id, hget, hh, rfl⟩
    rw [at?, idxOf?_eq hnodup hh, Option.bind_some, (hm id).entered hget, Option.bind_some, hget]

theorem Sound.at?_of_get? (hm : m.Sound) (hnodup : m.transports.Nodup) (hget : m.connections.get? id = some c)
    (hh : m.transportOf? c = some h) : m.at? h c.peer = some c :=
  (hm.at?_eq_some_iff hnodup).mpr ⟨id, hget, hh, rfl⟩

theorem at?_congr (hc : m'.connections = m.connections) (ht : m'.transports = m.transports) (h : ι) (p : Peer) :
    m'.at? h p = m.at? h p := by
  rw [at?, hc, ht, at?]

theorem at?_of_no_transports (hnil : m.transports = []) (h : ι) (p : Peer) : m.at? h p = none := by
  rw [at?, hnil]
  rfl

theorem mem_transports_of_at? (hat : m.at? h p = some c) : h ∈ m.transports := by
  obtain ⟨i, hi, -⟩ := Option.bind_eq_some_iff.mp hat
  obtain ⟨hlt, hh, -⟩ := List.idxOf?_eq_some_iff.mp hi
  exact hh ▸ List.getElem_mem hlt

theorem Sound.at?_of_idle (hm : m.Sound) (hnodup : m.transports.Nodup) (hnone : ∀ id, m.connections.get? id = none)
    (h : ι) (p : Peer) : m.at? h p = none :=
  Option.eq_none_iff_forall_ne_some.mpr fun c hat => by
    obtain ⟨id, hget, -⟩ := (hm.at?_eq_some_iff hnodup).mp hat
    exact (nomatch (hnone id).symm.trans hget)

/-- What stands at a peer of a transport, in the terms of the tables. -/
theorem Sound.seat (hm : m.Sound) (hnodup : m.transports.Nodup) (hi : m.transports[i]? = some h)
    (hat : m.at? h p = some c) :
    m.connections.get? c.id = some c ∧ m.connections.find? i p = some c.id ∧ c.transport = i ∧ c.peer = p := by
  rw [at?, idxOf?_eq hnodup hi, Option.bind_some] at hat
  obtain ⟨id, hf, hget⟩ := Option.bind_eq_some_iff.mp hat
  obtain ⟨x, hx, rfl, rfl⟩ := (hm id).found hf
  obtain rfl := Option.some.inj (hget.symm.trans hx)
  obtain rfl := (hm id).own hget
  exact ⟨hget, hf, rfl, rfl⟩

theorem Sound.find?_of_at? (hm : m.Sound) (hnodup : m.transports.Nodup) (hi : m.transports[i]? = some h)
    (hat : m.at? h p = none) : m.connections.find? i p = none := by
  rw [at?, idxOf?_eq hnodup hi, Option.bind_some] at hat
  cases hf : m.connections.find? i p with
  | none => rfl
  | some id =>
    obtain ⟨x, hx, -⟩ := (hm id).found hf
    rw [hf, Option.bind_some, hx] at hat
    cases hat

theorem Sound.at?_of_find? (hm : m.Sound) (hnodup : m.transports.Nodup) (hi : m.transports[i]? = some h)
    (hf : m.connections.find? i p = some id) : ∃ c, m.at? h p = some c ∧ m.connections.get? id = some c := by
  obtain ⟨c, hget, -⟩ := (hm id).found hf
  exact ⟨c, by rw [at?, idxOf?_eq hnodup hi, Option.bind_some, hf, Option.bind_some, hget], hget⟩

namespace Handles

theorem at?_of_ne (hm : m.Sound) (hnodup : m.transports.Nodup) (hh : Handles m m' i p id)
    (hi : m.transports[i]? = some h) (hne : ¬ (k = h ∧ q = p)) : m'.at? k q = m.at? k q := by
  have hm' : m'.Sound := hm.of_settles hh.toSettles
  have hnodup' : m'.transports.Nodup := hh.transports ▸ hnodup
  refine Option.ext fun c => ?_
  rw [hm'.at?_eq_some_iff hnodup', hm.at?_eq_some_iff hnodup, transportOf?, transportOf?, hh.transports]
  -- The connection that is dealt with stands at another peer before and after.
  have hother : ∀ {c : Connection}, c.transport = i ∧ c.peer = p → m.transports[c.transport]? = some k →
      c.peer ≠ q := by
    intro c hc hk hq
    obtain ⟨rfl, rfl⟩ := hc
    exact hne ⟨Option.some.inj (hk.symm.trans hi), hq.symm⟩
  constructor
  · rintro ⟨j, hget, hk, hq⟩
    have hj : j ≠ id := by
      rintro rfl
      exact hother (hh.after hget) hk hq
    exact ⟨j, hh.connections.get? hj ▸ hget, hk, hq⟩
  · rintro ⟨j, hget, hk, hq⟩
    have hj : j ≠ id := by
      rintro rfl
      exact hother (hh.before hget) hk hq
    exact ⟨j, (hh.connections.get? hj).trans hget, hk, hq⟩

/-- What stands there after the event is what has become of the connection that the event was about. -/
theorem at?_eq (hm : m.Sound) (hnodup : m.transports.Nodup) (hh : Handles m m' i p id)
    (hi : m.transports[i]? = some h) (hid : ∀ {j}, m.connections.find? i p = some j → j = id) :
    m'.at? h p = m'.connections.get? id := by
  have hm' : m'.Sound := hm.of_settles hh.toSettles
  have hnodup' : m'.transports.Nodup := hh.transports ▸ hnodup
  refine Option.ext fun c => ?_
  rw [hm'.at?_eq_some_iff hnodup', transportOf?, hh.transports]
  constructor
  · rintro ⟨j, hget, hk, rfl⟩
    by_cases hj : j = id
    · exact hj ▸ hget
    · have hget' : m.connections.get? j = some c := hh.connections.get? hj ▸ hget
      have hat := hm.at?_of_get? hnodup hget' hk
      obtain ⟨hown, hf, -⟩ := hm.seat hnodup hi hat
      exact absurd (((hm j).own hget').symm.trans (hid hf)) hj
  · intro hget
    obtain ⟨rfl, rfl⟩ := hh.after hget
    exact ⟨id, hget, hi, rfl⟩

end Handles

end StateSync.Manager
