import StateSync.Proofs.Manager.Reach

/-! What becomes of the connection that an event concerns, and what the application is told of it (`Outcome`). A
    session is given once, and so is a channel; both go only with the connection. -/

namespace StateSync

/-- A client is told that its connection has come to an end. -/
def NetEvent.isEnd : NetEvent → Bool
  | .connected .. => false
  | _ => true

namespace Connection.InPhase
variable {c : Connection} {side : Side}

theorem of_username (h : c.InPhase side (some .username)) : side = .server ∧ c.session = none ∧ c.channel = none := by
  simp only [Connection.InPhase] at h
  split at h <;> simp_all

theorem of_ack (h : c.InPhase side (some .ack)) :
    side = .server ∧ (∃ name, c.session = some name) ∧ c.channel = none := by
  simp only [Connection.InPhase, Option.isSome_iff_exists] at h
  split at h <;> simp_all

theorem of_assignedName (h : c.InPhase side (some .assignedName)) :
    side = .client ∧ c.session = none ∧ c.channel = none := by
  simp only [Connection.InPhase] at h
  split at h <;> simp_all

end Connection.InPhase

namespace Manager
variable {μ ι δ : Type} [Medium μ ι] {m m' m₁ : Manager ι δ} {w w' w₁ : μ} {h : ι} {e : TransportEvent}
  {id : ConnectionId} {c c₁ : Connection} {i : Nat} {p : Peer} {reason : String}

/-- The session name and the channel of a connection, if it is live. -/
def standing? (m : Manager ι δ) (id : ConnectionId) : Option (Option String × Option Channel) :=
  (m.connections.get? id).map fun c => (c.session, c.channel)

/-- The event is the acknowledgement that a connection waits for. -/
structure Acks (m : Manager ι δ) (i : Nat) (e : TransportEvent) (id : ConnectionId) (c : Connection) : Prop where
  live : m.connections.get? id = some c
  place : c.transport = i
  awaited : m.pending.get? id = some .ack
  frame : e = .data c.peer (textBytes ackText)

/-- The name table has no encoding, or the transport refuses to send it. -/
def Unsent (m : Manager ι δ) (w : μ) (h : ι) (p : Peer) : Prop :=
  ∀ payload, MessageType.stringTable.encode m.strings.entries = .ok payload →
    ∃ f, (Medium.send w h p (Frame.encode StringTable.bootstrapId payload) .ordered).1 = .error f

/-- The handling of an event, with the medium before and after, and what the application is told. -/
inductive Outcome (m : Manager ι δ) (w : μ) (i : Nat) (h : ι) (e : TransportEvent) (m' : Manager ι δ) (w' : μ)
    (id : ConnectionId) : List NetEvent → Prop
  | kept (same : m'.standing? id = m.standing? id) : Outcome m w i h e m' w' id []
  | entered (new : id = m.connections.nextId) (after : m'.standing? id = some (none, none)) :
      Outcome m w i h e m' w' id []
  /-- A server has the user name, and the session name is on its way. -/
  | named {c : Connection} {bs : Bytes} {requested name : String} (live : m.connections.get? id = some c)
      (frame : e = .data c.peer bs) (bare : c.session = none ∧ c.channel = none)
      (text : textOfBytes? bs = some requested) (valid : Username.fault? requested = none)
      (resolved : name = SessionName.resolve requested m.connections.sessionNames)
      (allowed : m.Allows ⟨id, c.remote, requested, name⟩)
      (sent : Medium.send w h c.peer (textBytes name) .ordered = (.ok (), w'))
      (after : m'.standing? id = some (some name, none)) : Outcome m w i h e m' w' id []
  /-- A server has the acknowledgement, and the name table is on its way. -/
  | opened {c : Connection} {name : String} {payload : Bytes} (ack : m.Acks i e id c) (session : c.session = some name)
      (bare : c.channel = none) (after : m'.standing? id = some (some name, some ⟨id, name, c.remote⟩))
      (encoded : MessageType.stringTable.encode m.strings.entries = .ok payload)
      (sent : Medium.send w h c.peer (Frame.encode StringTable.bootstrapId payload) .ordered = (.ok (), w')) :
      Outcome m w i h e m' w' id [.connected id name c.remote]
  /-- A server has the acknowledgement, and cannot send the name table. -/
  | lapsed {c : Connection} {name : String} (ack : m.Acks i e id c) (session : c.session = some name)
      (bare : c.channel = none) (after : m'.standing? id = none) (unsent : m.Unsent w h c.peer) :
      Outcome m w i h e m' w' id [.disconnected id name "Failed to send string table"]
  | accepted {c : Connection} {name : String} (client : m.side = .client) (live : m.connections.get? id = some c)
      (bare : c.session = none ∧ c.channel = none)
      (after : m'.standing? id = some (some name, some ⟨id, name, c.remote⟩)) :
      Outcome m w i h e m' w' id [.connected id name c.remote]
  | ended {c : Connection} {reason : String} (live : m.connections.get? id = some c)
      (after : m'.standing? id = none) : Outcome m w i h e m' w' id (m.farewell c reason).toList

/-- The application is told what the outcome says, after what it has been told before. -/
def ConcludesAt (m : Manager ι δ) (w : μ) (i : Nat) (h : ι) (e : TransportEvent) (m' : Manager ι δ) (w' : μ)
    (id : ConnectionId) : Prop := ∃ es, m'.events = m.events ++ es ∧ Outcome m w i h e m' w' id es

theorem standing?_of_get? (hget : m.connections.get? id = some c) : m.standing? id = some (c.session, c.channel) := by
  rw [standing?, hget]
  rfl

theorem standing?_eq_none : m.standing? id = none ↔ m.connections.get? id = none := Option.map_eq_none_iff

/-- The phase is not something that the application could notice. -/
theorem standing?_setPhase (m : Manager ι δ) (id : ConnectionId) (ph : Phase) (j : ConnectionId) :
    (m.setPhase id ph).standing? j = m.standing? j := by
  rw [standing?, setPhase, modifyConnection, ConnectionTable.get?_modify, standing?]
  split
  · rw [Option.map_map]
    rfl
  · rfl

theorem ConcludesAt.of_kept (hevents : m'.events = m.events) (hsame : m'.standing? id = m.standing? id) :
    ConcludesAt m w i h e m' w' id := ⟨[], by rw [hevents, List.append_nil], .kept hsame⟩

/-! ### The end of a connection -/

theorem events_teardown (hget : m.connections.get? id = some c) (reason : String) :
    (m.teardown id reason).events = m.events ++ (m.farewell c reason).toList := by
  have hremove : (m.clearPending id).connections.remove id = some ({ c with phase := .disconnected },
      ⟨m.connections.slots.set id.val none, m.connections.byPeer.erase (c.transport, c.peer)⟩) := by
    rw [clearPending, ConnectionTable.remove, hget]
    rfl
  have hfarewell : ∀ t : ConnectionTable, farewell { m.clearPending id with connections := t }
      { c with phase := .disconnected } reason = m.farewell c reason := fun _ => rfl
  simp only [teardown, hremove, hfarewell]
  cases m.farewell c reason with
  | none => simp [clearPending]
  | some e => simp [clearPending, pushEvent]

theorem ConcludesAt.of_teardown (live : m.connections.get? id = some c) (live₁ : m₁.connections.get? id = some c₁)
    (hevents : m₁.events = m.events) (hfarewell : m₁.farewell c₁ reason = m.farewell c reason) :
    ConcludesAt m w i h e (m₁.teardown id reason) w' id := by
  refine ⟨(m.farewell c reason).toList, ?_, .ended live ?_⟩
  · rw [events_teardown live₁, hevents, hfarewell]
  · rw [standing?_eq_none, get?_teardown, if_pos rfl]

/-! ### Server -/

theorem receiveUsername_concludes (hm : m.Sound) (hi : m.transports[i]? = some h)
    (hf : m.connections.find? i p = some id) (live : m.connections.get? id = some c)
    (awaited : m.pending.get? id = some .username) (w : μ) (bs : Bytes) :
    let r := (m.clearPending id).receiveUsername w id bs
    ConcludesAt m w i h (.data p bs) r.1 r.2 id := by
  have hcarries := hm.carries hi hf
  obtain ⟨-, rfl⟩ := hcarries c live
  have hin := (hm id).phase live
  rw [awaited] at hin
  obtain ⟨-, hbare⟩ := hin.of_username
  obtain rfl := (hm id).own live
  obtain ⟨hook, hcases⟩ := receiveUsername_cases (m := m.clearPending c.id) live w bs
  rcases hcases with ⟨reason, heq⟩ | ⟨requested, name, htext, hvalid, hname, hallows, heq⟩
  · simp only [heq]
    exact .of_teardown live live rfl rfl
  · let m₁ : Manager ι δ := modifyConnection { m.clearPending c.id with hook := hook } c.id fun c =>
      { c with session := some name, phase := .awaitingAck }
    have live₁ : m₁.connections.get? c.id = some { c with session := some name, phase := .awaitingAck } :=
      get?_modifyConnection live _
    have hsend : m₁.sendTo w c (textBytes name) .ordered = Medium.send w h c.peer (textBytes name) .ordered :=
      sendTo_of_carries (m := m) hcarries live ..
    dsimp only
    rw [heq, assignName, hsend]
    split
    · exact .of_teardown live live₁ rfl rfl
    · rename_i hsent
      refine ⟨[], (List.append_nil _).symm, .named live rfl hbare htext hvalid hname hallows hsent ?_⟩
      exact (standing?_of_get? (m := m₁) live₁).trans (by rw [hbare.2])

/-- The channel is there before the name table is sent, so the application is told of its end. -/
theorem receiveAck_of_unsent (hc : m.Carries c.id h c.peer) (live : m.connections.get? c.id = some c) {name : String}
    (hname : c.session = some name) (hunsent : m.Unsent w h c.peer) :
    let m' := (m.receiveAck w c.id (textBytes ackText)).1
    m'.events = m.events ++ [.disconnected c.id name "Failed to send string table"] ∧
      m'.connections.get? c.id = none := by
  let m₁ := m.openChannel c name
  let m₂ : Manager ι δ := { m₁ with strings := m₁.strings.lock }
  have live₁ : m₁.connections.get? c.id = some { c with
      session := some name, channel := some ⟨c.id, name, c.remote⟩, phase := .connected } :=
    get?_modifyConnection live _
  have hrejected : ∃ w₁, m.receiveAck w c.id (textBytes ackText) = m₂.reject w₁ c.id "Failed to send string table" := by
    cases hencode : MessageType.stringTable.encode m.strings.entries with
    | error f => exact ⟨w, receiveAck_of_error live hname (sendStringTable_of_error live₁ hencode w)⟩
    | ok payload =>
      have hcarries : m₁.Carries c.id h c.peer := hc.touched (.modify _ c.id fun _ => ⟨rfl, rfl⟩) live
      obtain ⟨f, hf⟩ := hunsent payload hencode
      exact ⟨_, receiveAck_of_error live hname (sendStringTable_of_ok hcarries live₁ hencode (Prod.ext hf rfl))⟩
  obtain ⟨w₁, hrejected⟩ := hrejected
  dsimp only
  rw [hrejected]
  exact ⟨events_teardown (m := m₂) live₁ _, (get?_teardown ..).trans (if_pos rfl)⟩

theorem receiveAck_concludes (hm : m.Sound) (hi : m.transports[i]? = some h)
    (hf : m.connections.find? i p = some id) (live : m.connections.get? id = some c)
    (awaited : m.pending.get? id = some .ack) (w : μ) (bs : Bytes) :
    let r := (m.clearPending id).receiveAck w id bs
    ConcludesAt m w i h (.data p bs) r.1 r.2 id := by
  have hcarries := hm.carries hi hf
  obtain ⟨x, hx, hplace, rfl⟩ := (hm id).found hf
  obtain rfl := Option.some.inj (live.symm.trans hx)
  have hin := (hm id).phase live
  rw [awaited] at hin
  obtain ⟨-, ⟨name, hname⟩, hchannel⟩ := hin.of_ack
  obtain rfl := (hm id).own live
  have hcleared : (m.clearPending c.id).Carries c.id h c.peer := hcarries
  by_cases hbs : bs = textBytes ackText
  · subst hbs
    have hack : m.Acks i (.data c.peer (textBytes ackText)) c.id c := ⟨live, hplace, awaited, rfl⟩
    by_cases hunsent : m.Unsent w h c.peer
    · obtain ⟨hevents, hgone⟩ := receiveAck_of_unsent (m := m.clearPending c.id) hcleared live hname hunsent
      exact ⟨_, hevents, .lapsed hack hname hchannel (standing?_eq_none.mpr hgone) hunsent⟩
    · obtain ⟨payload, hencode, hsend⟩ : ∃ payload, MessageType.stringTable.encode m.strings.entries = .ok payload ∧
          ∀ f, (Medium.send w h c.peer (Frame.encode StringTable.bootstrapId payload) .ordered).1 ≠ .error f := by
        simpa [Unsent] using hunsent
      rcases hsent : Medium.send w h c.peer (Frame.encode StringTable.bootstrapId payload) .ordered with ⟨f | u, w₁⟩
      · exact absurd (by rw [hsent]) (hsend f)
      · let m₁ := (m.clearPending c.id).openChannel c name
        have live₁ : m₁.connections.get? c.id = some { c with
            session := some name, channel := some ⟨c.id, name, c.remote⟩, phase := .connected } :=
          get?_modifyConnection live _
        have hcarries₁ : m₁.Carries c.id h c.peer := hcleared.touched (.modify _ c.id fun _ => ⟨rfl, rfl⟩) live
        dsimp only
        rw [receiveAck_of_ok (m := m.clearPending c.id) live hname
          (sendStringTable_of_ok hcarries₁ live₁ hencode hsent)]
        refine ⟨_, rfl, .opened hack hname hchannel ?_ hencode hsent⟩
        exact standing?_of_get? (m := m₁) live₁
  · have hreject : (m.clearPending c.id).receiveAck w c.id bs =
        (m.clearPending c.id).reject w c.id "Invalid handshake acknowledgement" := by
      simp only [receiveAck, hbs, ne_eq, not_false_eq_true, if_true]
    simp only [hreject]
    exact .of_teardown live live rfl rfl

/-! ### Client -/

theorem sendUsername_concludes (live : m.connections.get? id = some c) (hown : c.id = id) (w : μ) :
    let r := m.sendUsername w c
    ConcludesAt m w i h e r.1 r.2 id := by
  subst hown
  unfold sendUsername
  split
  · exact .of_teardown live live rfl rfl
  · exact .of_kept rfl (standing?_setPhase m c.id .awaitingAssignedName c.id)

theorem receiveAssignedName_concludes (hm : m.Sound) (live : m.connections.get? id = some c)
    (awaited : m.pending.get? id = some .assignedName) (w : μ) (bs : Bytes) :
    let r := (m.clearPending id).receiveAssignedName w id bs
    ConcludesAt m w i h e r.1 r.2 id := by
  have hin := (hm id).phase live
  rw [awaited] at hin
  obtain ⟨hside, hbare⟩ := hin.of_assignedName
  obtain rfl := (hm id).own live
  have hget : (m.clearPending c.id).connections.get? c.id = some c := live
  unfold receiveAssignedName
  split
  · exact .of_teardown live live rfl rfl
  · rw [hget]
    dsimp only
    split
    · exact .of_teardown live live rfl rfl
    · refine ⟨_, rfl, .accepted hside live hbare ?_⟩
      exact standing?_of_get? (m := (m.clearPending c.id).openChannel c _) (get?_modifyConnection hget _)

/-! ### Events -/

/-- An event is about one connection, which it leaves sound or ends. The application is told of no other. -/
def Concludes (m : Manager ι δ) (w : μ) (i : Nat) (h : ι) (e : TransportEvent) (m' : Manager ι δ) (w' : μ) : Prop :=
  ∃ id, Settles m m' id ∧ ConcludesAt m w i h e m' w' id

theorem Concludes.refl (hm : m.Sound) (w : μ) (i : Nat) (h : ι) (e : TransportEvent) (w' : μ) :
    Concludes m w i h e m w' :=
  ⟨m.connections.nextId, ⟨.refl _ _, hm _⟩, .of_kept rfl rfl⟩

theorem approve_standing (live : m.connections.get? id = some c) (w : μ) (h : ι) (p : Peer) :
    let m' := (m.approve w h id p).1
    m'.events = m.events ∧ (m'.standing? id = none ∨ m'.standing? id = m.standing? id) := by
  unfold approve
  split
  · exact ⟨rfl, Or.inr rfl⟩
  · split
    · exact ⟨rfl, Or.inr (standing?_setPhase m id .approved id)⟩
    · split
      · rename_i hremove
        refine ⟨rfl, Or.inl (standing?_eq_none.mpr ?_)⟩
        exact (ConnectionTable.get?_remove hremove id).trans (if_pos rfl)
      · rename_i hremove
        cases (ConnectionTable.remove_eq_none.mp hremove).symm.trans live

theorem handleApproval_concludes (hm : m.Sound) (hi : i < m.transports.length) (w : μ) (h : ι) (p : Peer) :
    let r := m.handleApproval w i h p
    Concludes m w i h e r.1 r.2 := by
  cases hs : m.isServer with
  | false =>
    simp only [handleApproval, hs]
    exact .refl hm w i h e w
  | true =>
    cases hf : m.connections.find? i p with
    | some id =>
      simp only [handleApproval, hs, enroll, hf, approve, if_pos (hm.phase?_ne id)]
      exact .refl hm w i h e w
    | none =>
      rcases hremote : Medium.remoteAddress w h p with ⟨_ | remote, w₁⟩
      · simp only [handleApproval, hs, enroll, hf, hremote]
        exact .refl hm w i h e w₁
      · obtain ⟨ht, hw, hget, hpend⟩ := hm.enter hi hf remote .awaitingApproval
        have hsettles := ht.settles (approve_settles hw hget hs rfl rfl rfl hpend w₁ h p)
        obtain ⟨hevents, hstanding⟩ := approve_standing hget w₁ h p
        simp only [handleApproval, hs, enroll, hf, hremote]
        refine ⟨m.connections.nextId, hsettles, [], by rw [List.append_nil]; exact hevents, ?_⟩
        rcases hstanding with hgone | hbare
        · have hnew : m.standing? m.connections.nextId = none := standing?_eq_none.mpr (ConnectionTable.get?_nextId _)
          exact .kept (hgone.trans hnew.symm)
        · exact .entered rfl (hbare.trans (standing?_of_get? hget))

theorem handleConnected_concludes (hm : m.Sound) (w : μ) (i : Nat) (p : Peer) :
    let r := m.handleConnected w i p
    Concludes m w i h e r.1 r.2 := by
  unfold handleConnected
  split
  · exact .refl hm w i h e w
  · rename_i c hc
    obtain ⟨id, -, live⟩ := Option.bind_eq_some_iff.mp hc
    obtain rfl := (hm id).own live
    have hin := (hm c.id).phase live
    split
    · rename_i hside hphase
      simp only [Connection.InPhase, hside, hphase] at hin
      have live₁ := get?_modifyConnection live fun c => { c with phase := .awaitingUsername }
      refine ⟨c.id, (Touched.setPhase m c.id _).settles ⟨.expect _ _ _, ?_⟩,
        .of_kept rfl (standing?_setPhase m c.id .awaitingUsername c.id)⟩
      refine Wired.soundAt (((hm c.id).toWired.setPhase _).of_eq rfl rfl) live₁ ?_
      simp [Connection.InPhase, setPhase, hside, hin]
    · rename_i hside hphase
      simp only [Connection.InPhase, hside, hphase] at hin
      exact ⟨c.id, sendUsername_settles (hm c.id).toWired live (by simp [isServer, hside]) hin.2.1 hin.2.2 w,
        sendUsername_concludes live rfl w⟩
    · exact .refl hm w i h e w

theorem handleDisconnected_concludes (hm : m.Sound) (i : Nat) (p : Peer) (reason : String) (w w' : μ) :
    Concludes m w i h e (m.handleDisconnected i p reason) w' := by
  unfold handleDisconnected
  split
  · exact .refl hm w i h e w'
  · rename_i id hf
    obtain ⟨c, live, -⟩ := (hm id).found hf
    exact ⟨id, (hm id).toWired.teardown reason, .of_teardown live live rfl rfl⟩

theorem handleData_concludes (hm : m.Sound) (hi : m.transports[i]? = some h) (w : μ) (p : Peer) (bs : Bytes) :
    let r := m.handleData w i p bs
    Concludes m w i h (.data p bs) r.1 r.2 := by
  unfold handleData
  split
  · exact .refl hm w i h _ w
  · rename_i id hf
    obtain ⟨c, live, -⟩ := (hm id).found hf
    split
    · rename_i f awaited
      refine ⟨id, receiveHandshake_settles hm live awaited w bs, ?_⟩
      cases f with
      | username => exact receiveUsername_concludes hm hi hf live awaited w bs
      | ack => exact receiveAck_concludes hm hi hf live awaited w bs
      | assignedName => exact receiveAssignedName_concludes hm live awaited w bs
    · split
      · exact .refl hm w i h _ w
      · rename_i ch _
        refine ⟨id, receiveFrame_settles (hm id) ch bs, ?_⟩
        obtain ⟨strings, received, heq, -⟩ := m.receiveFrame_eq ch bs
        rw [heq]
        exact .of_kept rfl rfl

theorem handleEvent_concludes (hm : m.Sound) (hi : m.transports[i]? = some h) (w : μ) (e : TransportEvent) :
    let r := m.handleEvent w i h e
    Concludes m w i h e r.1 r.2 := by
  cases e with
  | approvalRequest p => exact handleApproval_concludes hm (List.getElem?_eq_some_iff.mp hi).1 w h p
  | connected p reason => exact handleConnected_concludes hm w i p
  | disconnected p reason => exact handleDisconnected_concludes hm i p reason w w
  | data p bs => exact handleData_concludes hm hi w p bs

/-- An acknowledgement that cannot be answered with the name table ends the connection. -/
theorem handleEvent_of_unsent (hm : m.Sound) (hi : m.transports[i]? = some h) (hack : m.Acks i e id c)
    (hunsent : m.Unsent w h c.peer) :
    let m' := (m.handleEvent w i h e).1
    (∃ name, m'.events = m.events ++ [.disconnected id name "Failed to send string table"]) ∧
      m'.connections.get? id = none := by
  obtain ⟨live, rfl, awaited, rfl⟩ := hack
  have hf := (hm id).entered live
  have hin := (hm id).phase live
  rw [awaited] at hin
  obtain ⟨-, ⟨name, hname⟩, -⟩ := hin.of_ack
  obtain rfl := (hm id).own live
  have hcleared : (m.clearPending c.id).Carries c.id h c.peer := hm.carries hi hf
  obtain ⟨hevents, hgone⟩ := receiveAck_of_unsent (m := m.clearPending c.id) hcleared live hname hunsent
  simp only [handleEvent, handleData, hf, awaited, receiveHandshake]
  exact ⟨⟨name, hevents⟩, hgone⟩

end Manager
end StateSync
