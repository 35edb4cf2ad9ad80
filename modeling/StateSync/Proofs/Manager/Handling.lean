import StateSync.Manager.Process
import StateSync.Proofs.Manager.Touched
import StateSync.Proofs.Transport.Mail

/-! What the handling of an event does to a manager, whatever its medium does: it concerns one connection, that of
    the peer that the event names, and leaves it sound or ends it (`handleEvent_handles`). -/

namespace StateSync

namespace Manager
variable {μ ι δ : Type} [Medium μ ι] {m m₁ : Manager ι δ} {w w₁ : μ} {id : ConnectionId} {c : Connection} {i : Nat}
  {p : Peer}

/-! ### Server -/

theorem askHook_eq {r : ConnectRequest} {v : Verdict} (h : m.askHook r = (v, m₁)) :
    ∃ hook, m₁ = { m with hook := hook } := by
  unfold askHook at h
  split at h
  · obtain ⟨-, rfl⟩ := Prod.mk.inj h
    exact ⟨m.hook, rfl⟩
  · obtain ⟨-, rfl⟩ := Prod.mk.inj h
    exact ⟨_, rfl⟩

theorem assignName_settles (hw : m.Wired c.id) (hc : m.connections.get? c.id = some c) (hs : m.isServer = true)
    (hch : c.channel = none) (w : μ) (name : String) : Settles m (m.assignName w c name).1 c.id := by
  have hnamed : Touched m (m.modifyConnection c.id fun c => { c with session := some name, phase := .awaitingAck })
    c.id := .modify _ _ fun _ => ⟨rfl, rfl⟩
  have hw' := hw.modify (f := fun c => { c with session := some name, phase := .awaitingAck }) fun _ => ⟨rfl, rfl, rfl⟩
  have hc' := get?_modifyConnection hc fun c => { c with session := some name, phase := .awaitingAck }
  unfold assignName
  dsimp only
  split
  · exact hnamed.settles (hw'.teardown _)
  · refine hnamed.settles ⟨.expect _ _ _, Wired.soundAt (hw'.of_eq rfl rfl) hc' ?_⟩
    simp [Connection.InPhase, side_eq_server hs, hch]

/-- What the hook of a manager, if there is one, says to a request. -/
def Allows (m : Manager ι δ) (r : ConnectRequest) : Prop := ∀ h, m.hook = some h → h.decide h.asked r = .allow

theorem allows_of_askHook {r : ConnectRequest} (h : m.askHook r = (.allow, m₁)) : m.Allows r := by
  intro hook hhook
  rw [askHook, hhook] at h
  exact (Prod.mk.inj h).1

/-- A user name is refused, or it is valid and gets its session name. Whatever the hook says, it may have changed. -/
theorem receiveUsername_cases (hc : m.connections.get? id = some c) (w : μ) (bs : Bytes) : ∃ hook,
    (∃ reason, m.receiveUsername w id bs = reject { m with hook := hook } w id reason) ∨
      ∃ requested name, textOfBytes? bs = some requested ∧ Username.fault? requested = none ∧
        name = SessionName.resolve requested m.connections.sessionNames ∧ m.Allows ⟨id, c.remote, requested, name⟩ ∧
        m.receiveUsername w id bs = assignName { m with hook := hook } w c name := by
  unfold receiveUsername
  split
  · exact ⟨m.hook, Or.inl ⟨_, rfl⟩⟩
  · rename_i requested htext
    split
    · exact ⟨m.hook, Or.inl ⟨_, rfl⟩⟩
    · rename_i hvalid
      rw [hc]
      dsimp only
      split
      · rename_i hask
        obtain ⟨hook, rfl⟩ := askHook_eq hask
        exact ⟨hook, Or.inl ⟨_, rfl⟩⟩
      · rename_i hask
        have hallows := allows_of_askHook hask
        obtain ⟨hook, rfl⟩ := askHook_eq hask
        exact ⟨hook, Or.inr ⟨requested, _, htext, hvalid, rfl, hallows, rfl⟩⟩

theorem receiveUsername_settles (hw : m.Wired id) (hc : m.connections.get? id = some c) (hs : m.isServer = true)
    (hch : c.channel = none) (w : μ) (bs : Bytes) : Settles m (m.receiveUsername w id bs).1 id := by
  obtain ⟨hook, hcases⟩ := receiveUsername_cases hc w bs
  have hw' : Wired { m with hook := hook } id := hw.of_eq rfl rfl
  rcases hcases with ⟨reason, heq⟩ | ⟨requested, name, -, -, -, -, heq⟩
  · rw [heq]
    exact (Touched.hook m hook id).settles (hw'.teardown _)
  · rw [heq]
    obtain rfl := hw.own hc
    exact (Touched.hook m hook c.id).settles (assignName_settles hw' hc hs hch w _)

theorem openChannel_settles (hw : m.Wired c.id) (hc : m.connections.get? c.id = some c)
    (hp : m.pending.get? c.id = none) (name : String) : Settles m (m.openChannel c name) c.id := by
  refine ⟨.modify _ _ fun _ => ⟨rfl, rfl⟩,
    Wired.soundAt (hw.modify fun _ => ⟨rfl, rfl, rfl⟩) (get?_modifyConnection hc _) ?_⟩
  simp only [Connection.InPhase]
  exact ⟨hp, name, rfl, rfl⟩

/-- The table that is sent is locked; nothing else in the manager changes. -/
theorem sendStringTable_eq {r : Except NetError Unit} (h : m.sendStringTable w id = (r, m₁, w₁)) :
    m₁ = { m with strings := m.strings.lock } := by
  unfold sendStringTable at h
  dsimp only at h
  split at h
  · exact (Prod.mk.inj (Prod.mk.inj h).2).1.symm
  · split at h
    · exact (Prod.mk.inj (Prod.mk.inj h).2).1.symm
    · exact (Prod.mk.inj (Prod.mk.inj h).2).1.symm

theorem receiveAck_settles (hw : m.Wired id) (hc : m.connections.get? id = some c) (hses : c.session.isSome = true)
    (hp : m.pending.get? id = none) (w : μ) (bs : Bytes) : Settles m (m.receiveAck w id bs).1 id := by
  obtain ⟨name, hname⟩ := Option.isSome_iff_exists.mp hses
  obtain rfl := hw.own hc
  have hopen := openChannel_settles hw hc hp name
  unfold receiveAck
  split
  · exact hw.teardown _
  · rw [hc]
    dsimp only
    rw [hname]
    dsimp only
    have hlock : ∀ m₁ : Manager ι δ, m₁ = { m.openChannel c name with strings := (m.openChannel c name).strings.lock } →
        Settles m m₁ c.id := by
      intro m₁ h₁
      subst h₁
      exact hopen.toTouched.settles (.of_eq hopen.sound rfl rfl rfl rfl fun _ => Or.inr rfl)
    split
    · rename_i hsend
      have h₁ := hlock _ (sendStringTable_eq hsend)
      exact h₁.toTouched.settles (h₁.sound.toWired.teardown _)
    · rename_i hsend
      exact (hlock _ (sendStringTable_eq hsend)).pushEvent _

/-! ### Client -/

theorem sendUsername_settles (hw : m.Wired c.id) (hc : m.connections.get? c.id = some c) (hs : m.isServer = false)
    (hses : c.session = none) (hch : c.channel = none) (w : μ) : Settles m (m.sendUsername w c).1 c.id := by
  have hc' := get?_modifyConnection hc fun c => { c with phase := .awaitingAssignedName }
  unfold sendUsername
  split
  · exact hw.teardown _
  · refine (Touched.setPhase m c.id _).settles ⟨.expect _ _ _, Wired.soundAt ((hw.setPhase _).of_eq rfl rfl) hc' ?_⟩
    simp [Connection.InPhase, setPhase, side_eq_client hs, hses, hch]

theorem receiveAssignedName_settles (hw : m.Wired id) (hc : m.connections.get? id = some c)
    (hp : m.pending.get? id = none) (w : μ) (bs : Bytes) : Settles m (m.receiveAssignedName w id bs).1 id := by
  obtain rfl := hw.own hc
  unfold receiveAssignedName
  split
  · exact hw.teardown _
  · rw [hc]
    dsimp only
    split
    · exact hw.teardown _
    · exact (openChannel_settles hw hc hp _).pushEvent _

/-! ### Frames on a channel -/

theorem receiveStringTable_eq (m : Manager ι δ) (payload : Bytes) :
    ∃ strings, m.receiveStringTable payload = { m with strings := strings } ∧
      (m.isServer = true → strings = m.strings) := by
  unfold receiveStringTable
  split
  · exact ⟨m.strings, rfl, fun _ => rfl⟩
  · rename_i hs
    split
    · exact ⟨m.strings, rfl, fun _ => rfl⟩
    · split
      · exact ⟨m.strings, rfl, fun _ => rfl⟩
      · exact ⟨_, rfl, fun h => absurd h hs⟩

/-- A frame on a channel changes the name table of a client, or what the application has to take. -/
theorem receiveFrame_eq (m : Manager ι δ) (ch : Channel) (bs : Bytes) :
    ∃ strings received, m.receiveFrame ch bs = { m with strings := strings, received := received } ∧
      (m.isServer = true → strings = m.strings) := by
  unfold receiveFrame
  split
  · exact ⟨m.strings, m.received, rfl, fun _ => rfl⟩
  · split
    · obtain ⟨strings, h, hs⟩ := m.receiveStringTable_eq _
      exact ⟨strings, m.received, h, hs⟩
    · split
      · exact ⟨m.strings, m.received, rfl, fun _ => rfl⟩
      · split
        · exact ⟨m.strings, m.received, rfl, fun _ => rfl⟩
        · exact ⟨m.strings, _, rfl, fun _ => rfl⟩

theorem receiveFrame_settles (h : m.SoundAt id) (ch : Channel) (bs : Bytes) : Settles m (m.receiveFrame ch bs) id := by
  obtain ⟨strings, received, heq, hs⟩ := m.receiveFrame_eq ch bs
  rw [heq]
  exact .of_eq h rfl rfl rfl rfl fun h => Or.inl (hs h)

/-! ### Events -/

/-- Handling an event about a peer of a transport comes down to a change of one connection, which is that peer's
    before and after. -/
structure Handles (m m' : Manager ι δ) (i : Nat) (p : Peer) (id : ConnectionId) : Prop extends Settles m m' id where
  before : ∀ {c}, m.connections.get? id = some c → c.transport = i ∧ c.peer = p
  after : ∀ {c}, m'.connections.get? id = some c → c.transport = i ∧ c.peer = p

theorem Handles.refl (h : m.Sound) (i : Nat) (p : Peer) : ∃ id, Handles m m i p id := by
  cases hf : m.connections.find? i p with
  | some id =>
    obtain ⟨c, hc, hi, hp⟩ := (h id).found hf
    have hplace : ∀ {x}, m.connections.get? id = some x → x.transport = i ∧ x.peer = p := by
      intro x hx
      rw [← Option.some.inj (hc.symm.trans hx)]
      exact ⟨hi, hp⟩
    exact ⟨id, ⟨.refl _ _, h id⟩, hplace, hplace⟩
  | none =>
    have hnext : ∀ {c}, m.connections.get? m.connections.nextId ≠ some c := fun hc =>
      nomatch hc.symm.trans (ConnectionTable.get?_nextId _)
    exact ⟨m.connections.nextId, ⟨.refl _ _, h _⟩, fun hc => absurd hc hnext, fun hc => absurd hc hnext⟩

/-- Whatever becomes of a connection, its transport and its peer stay. -/
theorem Handles.of_settles {m' : Manager ι δ} (h : m.Sound) (hf : m.connections.find? i p = some id)
    (hs : Settles m m' id) : Handles m m' i p id := by
  obtain ⟨c, hc, hi, hp⟩ := (h id).found hf
  refine ⟨hs, fun hx => ?_, fun hx => ?_⟩
  · rw [← Option.some.inj (hc.symm.trans hx)]
    exact ⟨hi, hp⟩
  · obtain ⟨hi', hp'⟩ := hs.connections.place hc hx
    exact ⟨hi'.trans hi, hp'.trans hp⟩

/-- A peer that is entered is in agreement with the tables, under the next id. -/
theorem Sound.enter (h : m.Sound) (hi : i < m.transports.length) (hf : m.connections.find? i p = none)
    (remote : Address) (ph : Phase) :
    let m₁ : Manager ι δ := { m with connections := (m.connections.insert i p remote ph).2 }
    Touched m m₁ m.connections.nextId ∧ m₁.Wired m.connections.nextId ∧
      m₁.connections.get? m.connections.nextId = some ⟨m.connections.nextId, i, p, remote, ph, none, none⟩ ∧
      m₁.pending.get? m.connections.nextId = none := by
  have hget : (m.connections.insert i p remote ph).2.get? m.connections.nextId =
      some ⟨m.connections.nextId, i, p, remote, ph, none, none⟩ := by
    rw [ConnectionTable.get?_insert, if_pos rfl]
  have hnone := ConnectionTable.get?_nextId m.connections
  refine ⟨⟨.insert remote ph hf, fun _ => rfl, rfl, rfl, fun _ => Or.inl rfl⟩,
    ⟨fun hc => ?_, fun hc => ?_, fun hf => ?_, fun hc => ?_⟩, hget, ?_⟩
  · rw [← Option.some.inj (hget.symm.trans hc)]
  · rw [← Option.some.inj (hget.symm.trans hc), ConnectionTable.find?_insert, if_pos rfl]
  · rw [ConnectionTable.find?_insert] at hf
    split at hf
    · rename_i hk
      obtain ⟨rfl, rfl⟩ := Prod.mk.inj hk
      exact ⟨_, hget, rfl, rfl⟩
    · obtain ⟨c, hc, -⟩ := (h _).found hf
      exact (nomatch hnone.symm.trans hc)
  · rw [← Option.some.inj (hget.symm.trans hc)]
    exact hi
  · cases hp : m.pending.get? m.connections.nextId with
    | none => rfl
    | some f =>
      obtain ⟨c, hc⟩ := (h _).awaited hp
      exact (nomatch hnone.symm.trans hc)

/-- No connection is left waiting for its approval. -/
theorem Sound.phase?_ne (h : m.Sound) (id : ConnectionId) : m.phase? id ≠ some .awaitingApproval := by
  intro hp
  obtain ⟨c, hc, hph⟩ := Option.map_eq_some_iff.mp hp
  have hin := (h id).phase hc
  simp only [Connection.InPhase, hph] at hin
  split at hin <;> simp_all

theorem approve_settles (hw : m.Wired id) (hc : m.connections.get? id = some c) (hs : m.isServer = true)
    (hses : c.session = none) (hch : c.channel = none) (hph : c.phase = .awaitingApproval)
    (hp : m.pending.get? id = none) (w : μ) (hd : ι) (p : Peer) : Settles m (m.approve w hd id p).1 id := by
  have hphase : m.phase? id = some .awaitingApproval := by rw [phase?, hc, Option.map_some, hph]
  unfold approve
  rw [if_neg fun hne => hne hphase]
  split
  · refine ⟨.setPhase m id .approved, (hw.setPhase _).soundAt (get?_modifyConnection hc _) ?_⟩
    rw [show (m.setPhase id .approved).side = .server from side_eq_server hs]
    exact ⟨hp, hses, hch⟩
  · split
    · rename_i hr
      exact hw.remove hr hp
    · rename_i hr
      exact (nomatch (ConnectionTable.remove_eq_none.mp hr).symm.trans hc)

theorem handleApproval_handles (h : m.Sound) (hi : i < m.transports.length) (w : μ) (hd : ι) (p : Peer) :
    ∃ id, Handles m (m.handleApproval w i hd p).1 i p id := by
  cases hs : m.isServer with
  | false =>
    simp only [handleApproval, hs]
    exact Handles.refl h i p
  | true =>
    cases hf : m.connections.find? i p with
    | some id =>
      simp only [handleApproval, hs, enroll, hf, approve, if_pos (h.phase?_ne id)]
      exact Handles.refl h i p
    | none =>
      rcases hrem : Medium.remoteAddress w hd p with ⟨_ | remote, w₁⟩
      · simp only [handleApproval, hs, enroll, hf, hrem]
        exact Handles.refl h i p
      · obtain ⟨ht, hw, hc, hp⟩ := h.enter hi hf remote .awaitingApproval
        have happ := ht.settles (approve_settles hw hc hs rfl rfl rfl hp w₁ hd p)
        have hnone := ConnectionTable.get?_nextId m.connections
        simp only [handleApproval, hs, enroll, hf, hrem]
        refine ⟨m.connections.nextId, happ, fun hx => (nomatch hnone.symm.trans hx), fun hx => ?_⟩
        exact (approve_settles hw hc hs rfl rfl rfl hp w₁ hd p).connections.place hc hx

theorem handleConnected_handles (h : m.Sound) (w : μ) (i : Nat) (p : Peer) :
    ∃ id, Handles m (m.handleConnected w i p).1 i p id := by
  unfold handleConnected
  split
  · exact Handles.refl h i p
  · rename_i c hc
    obtain ⟨id, hf, hget⟩ := Option.bind_eq_some_iff.mp hc
    obtain rfl := (h id).own hget
    have hin := (h c.id).phase hget
    split
    · rename_i hside hph
      refine ⟨c.id, .of_settles h hf ((Touched.setPhase m c.id _).settles ⟨.expect _ _ _, ?_⟩)⟩
      simp only [Connection.InPhase, hside, hph] at hin
      refine Wired.soundAt (((h c.id).toWired.setPhase _).of_eq rfl rfl) (get?_modifyConnection hget _) ?_
      simp [Connection.InPhase, setPhase, hside, hin]
    · rename_i hside hph
      simp only [Connection.InPhase, hside, hph] at hin
      exact ⟨c.id, .of_settles h hf
        (sendUsername_settles (h c.id).toWired hget (by simp [isServer, hside]) hin.2.1 hin.2.2 w)⟩
    · exact Handles.refl h i p

theorem handleDisconnected_handles (h : m.Sound) (i : Nat) (p : Peer) (reason : String) :
    ∃ id, Handles m (m.handleDisconnected i p reason) i p id := by
  unfold handleDisconnected
  split
  · exact Handles.refl h i p
  · rename_i id hf
    exact ⟨id, .of_settles h hf ((h id).toWired.teardown reason)⟩

/-- A frame is awaited in three phases, one for each kind of frame. -/
theorem receiveHandshake_settles (h : m.Sound) (hc : m.connections.get? id = some c) {f : PendingFrame}
    (hf : m.pending.get? id = some f) (w : μ) (bs : Bytes) :
    Settles m ((m.clearPending id).receiveHandshake w id f bs).1 id := by
  have hin := (h id).phase hc
  have hw : (m.clearPending id).Wired id := (h id).toWired.of_eq rfl rfl
  have hp := get?_clearPending_self m id
  rw [hf] at hin
  refine (Touched.clearPending m id).settles ?_
  cases f with
  | username =>
    have hdec : m.isServer = true ∧ c.channel = none := by
      simp only [Connection.InPhase] at hin
      split at hin <;> simp_all [isServer]
    exact receiveUsername_settles hw hc hdec.1 hdec.2 w bs
  | ack =>
    have hdec : c.session.isSome = true := by
      simp only [Connection.InPhase] at hin
      split at hin <;> simp_all
    exact receiveAck_settles hw hc hdec hp w bs
  | assignedName => exact receiveAssignedName_settles hw hc hp w bs

theorem handleData_handles (h : m.Sound) (w : μ) (i : Nat) (p : Peer) (bs : Bytes) :
    ∃ id, Handles m (m.handleData w i p bs).1 i p id := by
  unfold handleData
  split
  · exact Handles.refl h i p
  · rename_i id hf
    obtain ⟨c, hc, -⟩ := (h id).found hf
    split
    · rename_i f hpend
      exact ⟨id, .of_settles h hf (receiveHandshake_settles h hc hpend w bs)⟩
    · split
      · exact Handles.refl h i p
      · exact ⟨id, .of_settles h hf (receiveFrame_settles (h id) _ bs)⟩

/-- An event concerns one connection, that of the peer it names, and leaves it sound or ends it. -/
theorem handleEvent_handles (h : m.Sound) (hi : i < m.transports.length) (w : μ) (hd : ι) (e : TransportEvent) :
    ∃ id, Handles m (m.handleEvent w i hd e).1 i e.peer id := by
  cases e with
  | approvalRequest p => exact handleApproval_handles h hi w hd p
  | connected p reason => exact handleConnected_handles h w i p
  | disconnected p reason => exact handleDisconnected_handles h i p reason
  | data p bs => exact handleData_handles h w i p bs

end Manager
end StateSync
