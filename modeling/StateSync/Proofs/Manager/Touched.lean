import StateSync.Manager.Handshake
import StateSync.Proofs.Connection.Table

/-! What holds of a manager between two events (`Sound`): the id of each peer, the place of each connection among
    the transports, and that the phase of a connection decides its session, its channel and the frame it waits
    for. An event concerns one connection; `Touched` is what it leaves as it is, and every single update keeps
    it. -/

namespace StateSync

/-- The phase of a connection decides the frame it waits for, its session and its channel. -/
def Connection.InPhase (c : Connection) (side : Side) (awaited : Option PendingFrame) : Prop :=
  match side, c.phase with
  | .server, .approved => awaited = none ∧ c.session = none ∧ c.channel = none
  | .server, .awaitingUsername => awaited = some .username ∧ c.session = none ∧ c.channel = none
  | .server, .awaitingAck => awaited = some .ack ∧ c.session.isSome = true ∧ c.channel = none
  | .client, .connecting => awaited = none ∧ c.session = none ∧ c.channel = none
  | .client, .awaitingAssignedName => awaited = some .assignedName ∧ c.session = none ∧ c.channel = none
  | _, .connected => awaited = none ∧ ∃ name, c.session = some name ∧ c.channel = some ⟨c.id, name, c.remote⟩
  | _, _ => False

namespace Manager
variable {ι δ : Type} {m m' m'' : Manager ι δ} {id j : ConnectionId} {c : Connection} {i : Nat} {p : Peer}

/-- The tables agree about a connection: it has its own id, its peer is entered under it and nothing else is, and
    one of the transports carries it. -/
structure Wired (m : Manager ι δ) (id : ConnectionId) : Prop where
  own : ∀ {c}, m.connections.get? id = some c → c.id = id
  entered : ∀ {c}, m.connections.get? id = some c → m.connections.find? c.transport c.peer = some id
  found : ∀ {i p}, m.connections.find? i p = some id →
    ∃ c, m.connections.get? id = some c ∧ c.transport = i ∧ c.peer = p
  carried : ∀ {c}, m.connections.get? id = some c → c.transport < m.transports.length

/-- Between two events a connection also is what its phase says, and no frame is awaited under a dead id. -/
structure SoundAt (m : Manager ι δ) (id : ConnectionId) : Prop extends Wired m id where
  phase : ∀ {c}, m.connections.get? id = some c → c.InPhase m.side (m.pending.get? id)
  awaited : ∀ {f}, m.pending.get? id = some f → ∃ c, m.connections.get? id = some c

def Sound (m : Manager ι δ) : Prop := ∀ id, m.SoundAt id

/-- Only the connection `id` and what is awaited for it may differ. A server's name table is at most locked. -/
structure Touched (m m' : Manager ι δ) (id : ConnectionId) : Prop where
  connections : m.connections.Touched m'.connections id
  pending : ∀ {j}, j ≠ id → m'.pending.get? j = m.pending.get? j
  side : m'.side = m.side
  transports : m'.transports = m.transports
  strings : m.isServer = true → m'.strings = m.strings ∨ m'.strings = m.strings.lock

/-- A connection is brought from one sound state to the next, or ended. -/
structure Settles (m m' : Manager ι δ) (id : ConnectionId) : Prop extends Touched m m' id where
  sound : m'.SoundAt id

/-! ### A change at one connection -/

theorem Touched.refl (m : Manager ι δ) (id : ConnectionId) : Touched m m id :=
  ⟨.refl _ _, fun _ => rfl, rfl, rfl, fun _ => Or.inl rfl⟩

theorem Touched.trans (h : Touched m m' id) (h' : Touched m' m'' id) : Touched m m'' id where
  connections := h.connections.trans h'.connections
  pending hj := (h'.pending hj).trans (h.pending hj)
  side := h'.side.trans h.side
  transports := h'.transports.trans h.transports
  strings hs := by
    have hs' : m'.isServer = true := by rw [isServer, h.side]; exact hs
    rcases h.strings hs with h₁ | h₁ <;> rcases h'.strings hs' with h₂ | h₂
    · exact Or.inl (h₂.trans h₁)
    · exact Or.inr (h₂.trans (by rw [h₁]))
    · exact Or.inr (h₂.trans h₁)
    · exact Or.inr (h₂.trans (by rw [h₁]; rfl))

theorem Touched.settles (h : Touched m m' id) (h' : Settles m' m'' id) : Settles m m'' id :=
  ⟨h.trans h'.toTouched, h'.sound⟩

theorem SoundAt.of_touched (h : m.SoundAt j) (ht : Touched m m' id) (hj : j ≠ id) : m'.SoundAt j where
  own hc := h.own (ht.connections.get? hj ▸ hc)
  entered hc := (ht.connections.find? _ _ hj).mpr (h.entered (ht.connections.get? hj ▸ hc))
  found hf := by
    rw [ht.connections.get? hj]
    exact h.found ((ht.connections.find? _ _ hj).mp hf)
  carried hc := ht.transports ▸ h.carried (ht.connections.get? hj ▸ hc)
  phase hc := by
    rw [ht.side, ht.pending hj]
    exact h.phase (ht.connections.get? hj ▸ hc)
  awaited hf := by
    rw [ht.connections.get? hj]
    exact h.awaited (ht.pending hj ▸ hf)

/-- A sound manager stays so if the one connection that changes is brought to a sound state. -/
theorem Sound.of_settles (h : m.Sound) (hs : Settles m m' id) : m'.Sound := by
  intro j
  by_cases hj : j = id
  · exact hj ▸ hs.sound
  · exact (h j).of_touched hs.toTouched hj

/-! ### Changes of other things -/

theorem Touched.of_eq (hc : m'.connections = m.connections) (hp : m'.pending = m.pending) (hs : m'.side = m.side)
    (ht : m'.transports = m.transports)
    (hn : m.isServer = true → m'.strings = m.strings ∨ m'.strings = m.strings.lock) (id : ConnectionId) :
    Touched m m' id :=
  ⟨hc ▸ .refl _ _, fun _ => by rw [hp], hs, ht, hn⟩

theorem Wired.of_eq (h : m.Wired id) (hc : m'.connections = m.connections) (ht : m'.transports = m.transports) :
    m'.Wired id where
  own := hc ▸ h.own
  entered := hc ▸ h.entered
  found := hc ▸ h.found
  carried := by
    rw [hc, ht]
    exact h.carried

theorem SoundAt.of_eq (h : m.SoundAt id) (hc : m'.connections = m.connections) (hp : m'.pending = m.pending)
    (hs : m'.side = m.side) (ht : m'.transports = m.transports) : m'.SoundAt id where
  toWired := h.toWired.of_eq hc ht
  phase := by
    rw [hc, hs, hp]
    exact h.phase
  awaited := by
    rw [hc, hp]
    exact h.awaited

theorem Settles.of_eq (h : m.SoundAt id) (hc : m'.connections = m.connections) (hp : m'.pending = m.pending)
    (hs : m'.side = m.side) (ht : m'.transports = m.transports)
    (hn : m.isServer = true → m'.strings = m.strings ∨ m'.strings = m.strings.lock) : Settles m m' id :=
  ⟨.of_eq hc hp hs ht hn id, h.of_eq hc hp hs ht⟩

theorem Settles.pushEvent (h : Settles m m' id) (e : NetEvent) : Settles m (m'.pushEvent e) id := by
  have hpush : Settles m' (m'.pushEvent e) id := .of_eq h.sound rfl rfl rfl rfl fun _ => Or.inl rfl
  exact h.toTouched.settles hpush

/-! ### Single updates -/

theorem Touched.modify (m : Manager ι δ) (id : ConnectionId) {f : Connection → Connection}
    (hf : ∀ c, (f c).transport = c.transport ∧ (f c).peer = c.peer) : Touched m (m.modifyConnection id f) id :=
  ⟨.modify _ _ hf, fun _ => rfl, rfl, rfl, fun _ => Or.inl rfl⟩

theorem Touched.setPhase (m : Manager ι δ) (id : ConnectionId) (ph : Phase) : Touched m (m.setPhase id ph) id :=
  .modify m id fun _ => ⟨rfl, rfl⟩

theorem Touched.expect (m : Manager ι δ) (id : ConnectionId) (f : PendingFrame) : Touched m (m.expect id f) id :=
  ⟨.refl _ _, fun hj => by rw [Manager.expect, Assoc.get?_insert, if_neg (Ne.symm hj)], rfl, rfl, fun _ => Or.inl rfl⟩

theorem Touched.clearPending (m : Manager ι δ) (id : ConnectionId) : Touched m (m.clearPending id) id :=
  ⟨.refl _ _, fun hj => by rw [Manager.clearPending, Assoc.get?_erase, if_neg (Ne.symm hj)], rfl, rfl,
    fun _ => Or.inl rfl⟩

theorem Touched.hook (m : Manager ι δ) (hook : Option ConnectHook) (id : ConnectionId) :
    Touched m { m with hook := hook } id :=
  ⟨.refl _ _, fun _ => rfl, rfl, rfl, fun _ => Or.inl rfl⟩

@[simp] theorem side_modifyConnection (m : Manager ι δ) (id : ConnectionId) (f : Connection → Connection) :
    (m.modifyConnection id f).side = m.side := rfl

@[simp] theorem side_expect (m : Manager ι δ) (id : ConnectionId) (f : PendingFrame) :
    (m.expect id f).side = m.side := rfl

@[simp] theorem get?_expect_self (m : Manager ι δ) (id : ConnectionId) (f : PendingFrame) :
    (m.expect id f).pending.get? id = some f := by
  rw [Manager.expect, Assoc.get?_insert, if_pos rfl]

@[simp] theorem get?_clearPending_self (m : Manager ι δ) (id : ConnectionId) :
    (m.clearPending id).pending.get? id = none := by
  rw [Manager.clearPending, Assoc.get?_erase, if_pos rfl]

theorem side_eq_server (h : m.isServer = true) : m.side = .server := by
  simpa [isServer] using h

theorem side_eq_client (h : m.isServer = false) : m.side = .client := by
  cases hs : m.side with
  | client => rfl
  | server => simp [isServer, hs] at h

theorem get?_modifyConnection (hc : m.connections.get? id = some c) (f : Connection → Connection) :
    (m.modifyConnection id f).connections.get? id = some (f c) := by
  simp only [modifyConnection, ConnectionTable.get?_modify, if_true, hc, Option.map_some]

/-- A change of a connection that leaves its id, its transport and its peer keeps the tables in agreement. -/
theorem Wired.modify (h : m.Wired id) {f : Connection → Connection}
    (hf : ∀ c, (f c).id = c.id ∧ (f c).transport = c.transport ∧ (f c).peer = c.peer) :
    (m.modifyConnection id f).Wired id := by
  have hget : ∀ {x}, (m.modifyConnection id f).connections.get? id = some x →
      ∃ c, m.connections.get? id = some c ∧ f c = x := by
    intro x hx
    simp only [modifyConnection, ConnectionTable.get?_modify, if_true] at hx
    exact Option.map_eq_some_iff.mp hx
  refine ⟨fun hx => ?_, fun hx => ?_, fun hx => ?_, fun hx => ?_⟩
  · obtain ⟨c, hc, rfl⟩ := hget hx
    exact (hf c).1.trans (h.own hc)
  · obtain ⟨c, hc, rfl⟩ := hget hx
    rw [(hf c).2.1, (hf c).2.2]
    exact h.entered hc
  · obtain ⟨c, hc, rfl, rfl⟩ := h.found hx
    exact ⟨f c, get?_modifyConnection hc f, (hf c).2⟩
  · obtain ⟨c, hc, rfl⟩ := hget hx
    rw [(hf c).2.1]
    exact h.carried hc

theorem Wired.setPhase (h : m.Wired id) (ph : Phase) : (m.setPhase id ph).Wired id :=
  h.modify fun _ => ⟨rfl, rfl, rfl⟩

theorem Wired.soundAt (h : m.Wired id) (hc : m.connections.get? id = some c)
    (hp : c.InPhase m.side (m.pending.get? id)) : m.SoundAt id where
  toWired := h
  phase hx := by
    obtain rfl := Option.some.inj (hc.symm.trans hx)
    exact hp
  awaited _ := ⟨c, hc⟩

theorem SoundAt.of_none (hc : m.connections.get? id = none) (hf : ∀ i p, m.connections.find? i p ≠ some id)
    (hp : m.pending.get? id = none) : m.SoundAt id where
  own h := (nomatch hc.symm.trans h)
  entered h := (nomatch hc.symm.trans h)
  found h := absurd h (hf _ _)
  carried h := (nomatch hc.symm.trans h)
  phase h := (nomatch hc.symm.trans h)
  awaited h := (nomatch hp.symm.trans h)

/-! ### The end of a connection -/

section
variable {t : ConnectionTable} {removed : Connection}

/-- The removal of a connection, with the frame it waits for, ends it. -/
theorem Wired.remove (h : m.Wired id) (hr : m.connections.remove id = some (removed, t))
    (hp : m.pending.get? id = none) : Settles m { m with connections := t } id where
  connections := .remove hr fun _ hc => h.entered hc
  pending _ := rfl
  side := rfl
  transports := rfl
  strings _ := Or.inl rfl
  sound := by
    refine .of_none (by rw [ConnectionTable.get?_remove hr, if_pos rfl]) (fun i p hf => ?_) hp
    obtain ⟨c, hc, -, rfl⟩ := ConnectionTable.remove_eq_some hr
    simp only [ConnectionTable.find?, Assoc.get?_erase] at hf
    by_cases hk : (c.transport, c.peer) = (i, p)
    · rw [if_pos hk] at hf
      cases hf
    · rw [if_neg hk] at hf
      obtain ⟨c', hc', rfl, rfl⟩ := h.found hf
      exact hk (by rw [Option.some.inj (hc.symm.trans hc')])

theorem Wired.teardown (h : m.Wired id) (reason : String) : Settles m (m.teardown id reason) id := by
  have hclear := Touched.clearPending m id
  have hw : (m.clearPending id).Wired id := h.of_eq rfl rfl
  have hp := get?_clearPending_self m id
  unfold Manager.teardown
  dsimp only
  split
  · rename_i hr
    have hnone := ConnectionTable.remove_eq_none.mp hr
    refine hclear.settles ⟨.refl _ _, .of_none hnone (fun i p hf => ?_) hp⟩
    obtain ⟨c, hc, -⟩ := hw.found hf
    exact (nomatch hnone.symm.trans hc)
  · rename_i hr
    have hgone := hclear.settles (hw.remove hr hp)
    split
    · exact hgone.pushEvent _
    · exact hgone

theorem get?_teardown (m : Manager ι δ) (id : ConnectionId) (reason : String) (j : ConnectionId) :
    (m.teardown id reason).connections.get? j = if id = j then none else m.connections.get? j := by
  unfold Manager.teardown
  dsimp only
  split
  · rename_i hr
    have hnone := ConnectionTable.remove_eq_none.mp hr
    by_cases hj : id = j
    · subst hj
      rw [if_pos rfl]
      exact hnone
    · rw [if_neg hj]
      rfl
  · rename_i hr
    split <;> exact ConnectionTable.get?_remove hr j

theorem teardown_keeps (m : Manager ι δ) (id : ConnectionId) (reason : String) :
    (m.teardown id reason).transports = m.transports ∧ (m.teardown id reason).strings = m.strings ∧
      (m.teardown id reason).side = m.side := by
  unfold Manager.teardown
  dsimp only
  split
  · exact ⟨rfl, rfl, rfl⟩
  · split <;> exact ⟨rfl, rfl, rfl⟩

end

end Manager
end StateSync
