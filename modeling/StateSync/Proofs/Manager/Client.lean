import StateSync.Proofs.Manager.Calls
import StateSync.Proofs.Manager.Frames
import StateSync.Proofs.Manager.Outcome

/-! The connection of a client. There is one at the most, and what its application is told (`Report`) follows what
    becomes of it: a failure, if it ends before it has a channel, or else its beginning and its end. -/

namespace StateSync
variable {μ ι δ : Type}

/-- What the application has been told of a connection to `remote`, by its session and channel if it lives. -/
inductive Report (id : ConnectionId) (remote : Address) :
    Option (Option String × Option Channel) → List NetEvent → Prop
  | handshaking {session} : Report id remote (some (session, none)) []
  | failed {reason} : Report id remote none [.connectFailed remote reason]
  | begun {session name} : Report id remote (some (session, some ⟨id, name, remote⟩)) [.connected id name remote]
  | ended {name reason} :
      Report id remote none [.connected id name remote, .disconnected id name reason]

namespace Report
variable {id : ConnectionId} {remote : Address} {session : Option String} {ch : Channel} {told : List NetEvent}
  {m : Manager ι δ} {c : Connection}

theorem handshaking_inv (h : Report id remote (some (session, none)) told) : told = [] := by
  cases h with
  | handshaking => rfl

theorem begun_inv (h : Report id remote (some (session, some ch)) told) :
    ch = ⟨id, ch.sessionName, remote⟩ ∧ told = [.connected id ch.sessionName remote] := by
  cases h with
  | begun => exact ⟨rfl, rfl⟩

/-- The end is told as a failure exactly if there was no channel. -/
theorem farewell (h : Report id remote (m.standing? id) told) (hm : m.Sound) (hs : m.isServer = false)
    (live : m.connections.get? id = some c) (hremote : c.remote = remote) (reason : String) :
    Report id remote none (told ++ (m.farewell c reason).toList) := by
  obtain rfl := (hm id).own live
  rw [Manager.standing?_of_get? live] at h
  cases hch : c.channel with
  | none =>
    rw [hch] at h
    obtain rfl := h.handshaking_inv
    have hfarewell : m.farewell c reason = some (.connectFailed remote reason) := by
      simp only [Manager.farewell, hch, hs, hremote]
      rfl
    rw [hfarewell]
    exact .failed
  | some ch =>
    rw [hch] at h
    obtain ⟨-, rfl⟩ := h.begun_inv
    have hfarewell : m.farewell c reason = some (.disconnected c.id ch.sessionName reason) := by
      simp only [Manager.farewell, hch]
    rw [hfarewell]
    exact .ended

theorem told_cases (h : Report id remote (m.standing? id) told) :
    (told = [] ∧ ∃ c, m.connections.get? id = some c ∧ c.channel = none) ∨
    (∃ reason, told = [.connectFailed remote reason] ∧ m.connections.get? id = none) ∨
    (∃ name, told = [.connected id name remote] ∧ m.channel? id = some ⟨id, name, remote⟩) ∨
    ∃ name reason, told = [.connected id name remote, .disconnected id name reason] ∧
      m.connections.get? id = none := by
  generalize hstanding : m.standing? id = standing at h
  cases h with
  | handshaking =>
    obtain ⟨c, live, hc⟩ := Option.map_eq_some_iff.mp hstanding
    exact Or.inl ⟨rfl, c, live, (Prod.mk.inj hc).2⟩
  | @failed reason => exact Or.inr (Or.inl ⟨reason, rfl, Manager.standing?_eq_none.mp hstanding⟩)
  | @begun session name =>
    obtain ⟨c, live, hc⟩ := Option.map_eq_some_iff.mp hstanding
    exact Or.inr (Or.inr (Or.inl ⟨name, rfl, Option.bind_eq_some_iff.mpr ⟨c, live, (Prod.mk.inj hc).2⟩⟩))
  | @ended name reason =>
    exact Or.inr (Or.inr (Or.inr ⟨name, reason, rfl, Manager.standing?_eq_none.mp hstanding⟩))

/-- A connection lives as long as no end of it has been told. -/
theorem isLive_iff (h : Report id remote (m.standing? id) told) :
    m.connections.isLive id = true ↔ ∀ e ∈ told, e.isEnd = false := by
  have hlive : m.connections.isLive id = (m.standing? id).isSome := Option.isSome_map.symm
  rw [hlive]
  generalize m.standing? id = standing at h
  cases h <;> simp [NetEvent.isEnd]

end Report

namespace Manager
variable {m m' m'' : Manager ι δ} {w : μ} {h : ι} {i : Nat} {e : TransportEvent} {id : ConnectionId} {c : Connection}
  {es es' : List NetEvent}

/-! ### What connections come from -/

/-- A connection that there is now was there before, and led to the same address. -/
def Descends (m m' : Manager ι δ) : Prop := ∀ id c', m'.connections.get? id = some c' →
  ∃ c, m.connections.get? id = some c ∧ c'.remote = c.remote

theorem Descends.of_eq (hc : m'.connections = m.connections) : Descends m m' := fun _ c' live => ⟨c', hc ▸ live, rfl⟩

theorem Descends.trans (hd : Descends m m') (hd' : Descends m' m'') : Descends m m'' := by
  intro id c'' live
  obtain ⟨c', live', hremote'⟩ := hd' id c'' live
  obtain ⟨c, live, hremote⟩ := hd id c' live'
  exact ⟨c, live, hremote'.trans hremote⟩

theorem Descends.modify (m : Manager ι δ) (id : ConnectionId) {f : Connection → Connection}
    (hf : ∀ c, (f c).remote = c.remote) : Descends m (m.modifyConnection id f) := by
  intro j c' live
  rw [modifyConnection, ConnectionTable.get?_modify] at live
  split at live
  · obtain ⟨c, hget, rfl⟩ := Option.map_eq_some_iff.mp live
    exact ⟨c, hget, hf c⟩
  · exact ⟨c', live, rfl⟩

theorem Descends.teardown (m : Manager ι δ) (id : ConnectionId) (reason : String) :
    Descends m (m.teardown id reason) := by
  intro j c' live
  rw [get?_teardown] at live
  split at live
  · cases live
  · exact ⟨c', live, rfl⟩

section
variable [Medium μ ι]

theorem sendUsername_descends (m : Manager ι δ) (w : μ) (c : Connection) : Descends m (m.sendUsername w c).1 := by
  unfold sendUsername
  split
  · exact .teardown m c.id _
  · exact .modify m c.id fun _ => rfl

theorem receiveAssignedName_descends (m : Manager ι δ) (w : μ) (id : ConnectionId) (bs : Bytes) :
    Descends m (m.receiveAssignedName w id bs).1 := by
  unfold receiveAssignedName
  split
  · exact .teardown m id _
  · split
    · exact .of_eq rfl
    · split
      · exact .teardown m id _
      · exact .modify m _ fun _ => rfl

/-- A client awaits no frame but its name. -/
theorem handleData_descends (hm : m.Sound) (hs : m.isServer = false) (w : μ) (i : Nat) (p : Peer) (bs : Bytes) :
    Descends m (m.handleData w i p bs).1 := by
  unfold handleData
  split
  · exact .of_eq rfl
  · rename_i id hf
    split
    · rename_i f awaited
      obtain ⟨c, live⟩ := (hm id).awaited awaited
      have hin := (hm id).phase live
      rw [awaited, side_eq_client hs] at hin
      have hcleared : Descends m (m.clearPending id) := .of_eq rfl
      cases f with
      | username => cases hin.of_username.1
      | ack => cases hin.of_ack.1
      | assignedName => exact hcleared.trans (receiveAssignedName_descends _ w id bs)
    · split
      · exact .of_eq rfl
      · obtain ⟨strings, received, heq, -⟩ := m.receiveFrame_eq _ bs
        rw [heq]
        exact .of_eq rfl

theorem handleEvent_descends (hm : m.Sound) (hs : m.isServer = false) (w : μ) (i : Nat) (h : ι) (e : TransportEvent) :
    Descends m (m.handleEvent w i h e).1 := by
  cases e with
  | approvalRequest p =>
    rw [handleEvent, handleApproval, hs]
    exact .of_eq rfl
  | connected p reason =>
    rw [handleEvent, handleConnected]
    split
    · exact .of_eq rfl
    · rename_i c _
      split
      · rename_i hside _
        cases (side_eq_client hs).symm.trans hside
      · exact sendUsername_descends m w c
      · exact .of_eq rfl
  | disconnected p reason =>
    show Descends m (m.handleDisconnected i p reason)
    unfold handleDisconnected
    split
    · exact .of_eq rfl
    · exact .teardown m _ reason
  | data p bs => exact handleData_descends hm hs w i p bs

end

/-! ### What the application is told -/

/-- No connection lives but `id`, which leads to `remote`. -/
def Alone (m : Manager ι δ) (id : ConnectionId) (remote : Address) : Prop :=
  ∀ j c, m.connections.get? j = some c → j = id ∧ c.remote = remote

theorem Alone.descends {remote : Address} (ha : m.Alone id remote) (hd : Descends m m') : m'.Alone id remote := by
  intro j c' live
  obtain ⟨c, live, hremote⟩ := hd j c' live
  obtain ⟨hj, hc⟩ := ha j c live
  exact ⟨hj, hremote.trans hc⟩

/-- No connection is opened, and what the application of a client is told carries on the report of the one that there
    is. -/
structure Reports (m m' : Manager ι δ) (es : List NetEvent) : Prop where
  advances : Advances m m'
  descends : Descends m m'
  events : m'.events = m.events ++ es
  silent : (∀ id, m.connections.get? id = none) → es = []
  report : ∀ {id remote told}, m.Alone id remote → Report id remote (m.standing? id) told →
    Report id remote (m'.standing? id) (told ++ es)

theorem Reports.of_eq (hadv : Advances m m') (hc : m'.connections = m.connections) (he : m'.events = m.events) :
    Reports m m' [] where
  advances := hadv
  descends := .of_eq hc
  events := by rw [he, List.append_nil]
  silent _ := rfl
  report _ hr := by rwa [List.append_nil, standing?, hc]

theorem Reports.trans (h : Reports m m' es) (h' : Reports m' m'' es') : Reports m m'' (es ++ es') where
  advances := h.advances.trans h'.advances
  descends := h.descends.trans h'.descends
  events := by rw [h'.events, h.events, List.append_assoc]
  silent hnone := by
    rw [h.silent hnone, List.nil_append]
    refine h'.silent fun id => Option.eq_none_iff_forall_ne_some.mpr fun c' live => ?_
    obtain ⟨c, live, -⟩ := h.descends id c' live
    cases (hnone id).symm.trans live
  report ha hr := by
    rw [← List.append_assoc]
    exact h'.report (ha.descends h.descends) (h.report ha hr)

theorem teardown_reports (hm : m.Sound) (hs : m.isServer = false) (id : ConnectionId) (reason : String) :
    ∃ es, Reports m (m.teardown id reason) es := by
  have hadv : Advances m (m.teardown id reason) := .of_settles hm ((hm id).toWired.teardown reason)
  cases live : m.connections.get? id with
  | none =>
    have hnone : (m.clearPending id).connections.remove id = none := ConnectionTable.remove_eq_none.mpr live
    have heq : m.teardown id reason = m.clearPending id := by simp only [teardown, hnone]
    rw [heq] at hadv ⊢
    exact ⟨[], .of_eq hadv rfl rfl⟩
  | some c =>
    refine ⟨(m.farewell c reason).toList, hadv, .teardown m id reason, events_teardown live reason,
      fun hnone => (by cases (hnone id).symm.trans live), fun {j remote told} ha hr => ?_⟩
    obtain ⟨rfl, hremote⟩ := ha id c live
    rw [standing?, get?_teardown, if_pos rfl]
    exact hr.farewell hm hs live hremote reason

theorem teardownAll_reports (hm : m.Sound) (hs : m.isServer = false) (ids : List ConnectionId) (reason : String) :
    ∃ es, Reports m (ids.foldl (fun m id => m.teardown id reason) m) es := by
  induction ids generalizing m with
  | nil => exact ⟨[], .of_eq (.refl hm) rfl rfl⟩
  | cons id ids ih =>
    obtain ⟨es, hone⟩ := teardown_reports hm hs id reason
    obtain ⟨es', hrest⟩ := ih hone.advances.sound (hone.advances.isServer.trans hs)
    exact ⟨es ++ es', hone.trans hrest⟩

variable [Medium μ ι]

theorem shutdown_reports (hm : m.Sound) (hs : m.isServer = false) (w : μ) (reason : String) :
    ∃ es, Reports m (m.shutdown w reason).1 es := by
  have hadv := shutdown_advances hm w reason
  unfold shutdown at hadv ⊢
  split
  · exact ⟨[], .of_eq (.refl hm) rfl rfl⟩
  · rename_i hrun
    rw [if_neg hrun] at hadv
    obtain ⟨es, hall⟩ := teardownAll_reports hm hs (m.connections.live.map (·.id)) reason
    exact ⟨es, hadv, hall.descends, hall.events, hall.silent, hall.report⟩

/-- What an event comes to for a client: its connection stays as it is, is accepted, or ends. -/
theorem handleEvent_reports (hm : m.Sound) (hs : m.isServer = false) (hi : m.transports[i]? = some h) (w : μ)
    (e : TransportEvent) : ∃ es, Reports m (m.handleEvent w i h e).1 es := by
  have hdescends := handleEvent_descends hm hs w i h e
  obtain ⟨id, hsettles, es, hevents, houtcome⟩ := handleEvent_concludes hm hi w e
  have hadv : Advances m (m.handleEvent w i h e).1 := .of_settles hm hsettles
  generalize (m.handleEvent w i h e).1 = m' at *
  generalize (m.handleEvent w i h e).2 = w' at *
  have hclient := side_eq_client hs
  refine ⟨es, hadv, hdescends, hevents, fun hnone => ?_, fun {j remote told} ha hr => ?_⟩
  · cases houtcome with
    | kept => rfl
    | entered => rfl
    | named => rfl
    | opened ack => cases (hnone id).symm.trans ack.live
    | lapsed ack => cases (hnone id).symm.trans ack.live
    | accepted client live => cases (hnone id).symm.trans live
    | ended live => cases (hnone id).symm.trans live
  · cases houtcome with
    | kept same =>
      rw [List.append_nil]
      by_cases hj : j = id
      · subst hj
        rwa [same]
      · rwa [standing?, hsettles.connections.get? hj]
    | entered new after =>
      -- A client takes no requests.
      obtain ⟨c', live', -⟩ := Option.map_eq_some_iff.mp after
      obtain ⟨c, live, -⟩ := hdescends id c' live'
      rw [new] at live
      cases (ConnectionTable.get?_nextId _).symm.trans live
    | named live frame bare text valid resolved allowed sent after =>
      -- A client has its session name with its channel.
      obtain ⟨c', live', hstanding⟩ := Option.map_eq_some_iff.mp after
      obtain ⟨hsession, hchannel⟩ := Prod.mk.inj hstanding
      have hin := (hadv.sound id).phase live'
      rw [hadv.side, hclient] at hin
      simp only [Connection.InPhase] at hin
      split at hin <;> simp_all
    | opened ack =>
      have hin := (hm id).phase ack.live
      rw [ack.awaited, hclient] at hin
      cases hin.of_ack.1
    | lapsed ack =>
      have hin := (hm id).phase ack.live
      rw [ack.awaited, hclient] at hin
      cases hin.of_ack.1
    | accepted client live bare after =>
      obtain ⟨rfl, rfl⟩ := ha id _ live
      rw [standing?_of_get? live, bare.2] at hr
      obtain rfl := hr.handshaking_inv
      rw [after]
      exact .begun
    | ended live after =>
      obtain ⟨rfl, hremote⟩ := ha id _ live
      rw [after]
      exact hr.farewell hm hs live hremote _

theorem next_reports (hm : m.Sound) (hs : m.isServer = false) (w : μ) (i : Nat) : ∃ es, Reports m (m.next w i).1 es := by
  unfold next
  split
  · exact ⟨[], .of_eq (.refl hm) rfl rfl⟩
  · rename_i h hi
    split
    · exact ⟨[], .of_eq (.refl hm) rfl rfl⟩
    · rename_i e w₁ _
      exact handleEvent_reports hm hs hi w₁ e

theorem process_reports (hm : m.Sound) (hs : m.isServer = false) (w : μ) : ∃ es, Reports m (m.process w).1 es := by
  refine process_induction (P := fun m' _ => ∃ es, Reports m m' es) hm ⟨[], .of_eq (.refl hm) rfl rfl⟩ ?_
  rintro m' w' i hm' ⟨es, hr⟩
  obtain ⟨es', hone⟩ := next_reports hm' (hr.advances.isServer.trans hs) w' i
  exact ⟨es ++ es', hr.trans hone⟩

/-- A call that neither opens a connection nor takes what there is to be told. -/
def Call.IsReported : Call μ ι δ → Prop
  | .connect _ _ _ => False
  | .takeEvents => False
  | _ => True

theorem perform_reports (hm : m.Sound) (hs : m.isServer = false) (w : μ) {x : Call μ ι δ} (hx : x.IsReported) :
    ∃ es, Reports m (perform (m, w) x).1 es := by
  cases x with
  | start =>
    have heq : (m.start w).2.1 = m := by simp [start, hs]
    exact ⟨[], .of_eq (start_advances hm w) (by rw [perform, heq]) (by rw [perform, heq])⟩
  | connect h remote username => cases hx
  | next i => exact next_reports hm hs w i
  | process => exact process_reports hm hs w
  | disconnect id reason =>
    rw [perform, disconnect]
    split
    · exact teardown_reports hm hs id reason
    · exact ⟨[], .of_eq (.refl hm) rfl rfl⟩
  | send id t x => exact ⟨[], .of_eq (.refl hm) rfl rfl⟩
  | broadcast t x => exact ⟨[], .of_eq (.refl hm) rfl rfl⟩
  | shutdown reason => exact shutdown_reports hm hs w reason
  | register t receive =>
    cases hr : m.register t receive with
    | error f =>
      simp only [perform, hr]
      exact ⟨[], .of_eq (.refl hm) rfl rfl⟩
    | ok m' =>
      obtain ⟨strings, registry, rfl, -⟩ := register_eq hr
      simp only [perform, hr]
      exact ⟨[], .of_eq (.of_eq hm rfl rfl rfl rfl) rfl rfl⟩
  | setHook hook => exact ⟨[], .of_eq (.of_eq hm rfl rfl rfl rfl) rfl rfl⟩
  | changeSetting key value =>
    obtain ⟨settings, heq⟩ := m.changeSetting_eq w key value
    exact ⟨[], .of_eq (perform_advances hm w (.changeSetting key value)) (by rw [perform, heq]) (by rw [perform, heq])⟩
  | takeEvents => cases hx
  | takeReceived => exact ⟨[], .of_eq (.of_eq hm rfl rfl rfl rfl) rfl rfl⟩
  | outside w' => exact ⟨[], .of_eq (.refl hm) rfl rfl⟩

/-! ### Without a connection -/

/-- A client without a connection, with nothing left to tell. -/
structure Idle (m : Manager ι δ) : Prop where
  sound : m.Sound
  client : m.isServer = false
  gone : ∀ id, m.connections.get? id = none
  silent : m.events = []

theorem Idle.of_eq (hi : m.Idle) (hadv : Advances m m') (hc : m'.connections = m.connections)
    (he : m'.events = m.events) : m'.Idle :=
  ⟨hadv.sound, hadv.isServer.trans hi.client, hc ▸ hi.gone, he.trans hi.silent⟩

/-- Nothing that its transports report is of any account to it. -/
theorem Idle.handleEvent (hi : m.Idle) (w : μ) (i : Nat) (h : ι) (e : TransportEvent) :
    m.handleEvent w i h e = (m, w) := by
  have hfind : ∀ p, m.connections.find? i p = none := fun p =>
    Option.eq_none_iff_forall_ne_some.mpr fun id hf => by
      obtain ⟨c, live, -⟩ := (hi.sound id).found hf
      cases (hi.gone id).symm.trans live
  cases e with
  | approvalRequest p => simp [Manager.handleEvent, handleApproval, hi.client]
  | connected p reason => simp [Manager.handleEvent, handleConnected, hfind]
  | disconnected p reason => simp [Manager.handleEvent, handleDisconnected, hfind]
  | data p bs => simp [Manager.handleEvent, handleData, hfind]

theorem Idle.next (hi : m.Idle) (w : μ) (i : Nat) : (m.next w i).1 = m := by
  unfold Manager.next
  split
  · rfl
  · split
    · rfl
    · rw [hi.handleEvent]

theorem Idle.process (hi : m.Idle) (w : μ) : (m.process w).1 = m := by
  refine process_induction (P := fun m' _ => m' = m) hi.sound rfl ?_
  rintro m' w' i - rfl
  exact hi.next w' i

theorem Idle.shutdown (hi : m.Idle) (w : μ) (reason : String) :
    (m.shutdown w reason).1.Idle ∧ (m.shutdown w reason).1.received = m.received := by
  obtain ⟨es, hr⟩ := shutdown_reports hi.sound hi.client w reason
  refine ⟨⟨hr.advances.sound, hr.advances.isServer.trans hi.client, fun id => ?_, ?_⟩,
    (shutdown_leaves m w reason).received⟩
  · refine Option.eq_none_iff_forall_ne_some.mpr fun c' live => ?_
    obtain ⟨c, live₀, -⟩ := hr.descends id c' live
    cases (hi.gone id).symm.trans live₀
  · rw [hr.events, hi.silent, hr.silent hi.gone]
    rfl

/-! ### Opening a connection -/

theorem Sound.peerCount_pos_iff (hm : m.Sound) :
    0 < m.connections.peerCount ↔ ∃ id, m.connections.isLive id = true := by
  constructor
  · intro hpos
    obtain ⟨entry, hentry⟩ := List.exists_mem_of_length_pos hpos
    obtain ⟨⟨i, p⟩, id⟩ := entry
    have hfind : m.connections.find? i p = some id := (Assoc.lookup_eq_some_iff m.connections.byPeer.nodup).mpr hentry
    obtain ⟨c, live, -⟩ := (hm id).found hfind
    exact ⟨id, by rw [ConnectionTable.isLive, live]; rfl⟩
  · rintro ⟨id, hlive⟩
    refine Decidable.of_not_not fun hpos => ?_
    rw [ConnectionTable.isLive, hm.get?_of_peerCount hpos id] at hlive
    cases hlive

/-- A client is refused a connection while it has one. Otherwise it gets one, under a new id, if its transport does. -/
theorem connect_of_client (hm : m.Sound) (hs : m.isServer = false) (w : μ) (h : ι) (remote : Address)
    (username : String) :
    ((∃ id, m.connections.isLive id = true) ∧
      m.connect w h remote username = (.error .alreadyRunning, m, Medium.close w h)) ∨
    ((∀ id, m.connections.get? id = none) ∧
      ((∃ f w', Medium.connect (tune w m.settings h) h remote = (.error f, w') ∧
          m.connect w h remote username = (.error f, m, Medium.close w' h)) ∨
        ∃ peer w' w'', Medium.connect (tune w m.settings h) h remote = (.ok peer, w') ∧
          m.connect w h remote username = (.ok m.connections.nextId, m.dialing h username peer remote, w''))) := by
  have hclient : ¬ m.isServer = true := by rw [hs]; exact Bool.false_ne_true
  unfold connect
  rw [if_neg hclient]
  by_cases hpos : 0 < m.connections.peerCount
  · rw [if_pos hpos]
    exact Or.inl ⟨hm.peerCount_pos_iff.mp hpos, rfl⟩
  · rw [if_neg hpos]
    refine Or.inr ⟨hm.get?_of_peerCount hpos, ?_⟩
    rcases hconnect : Medium.connect (tune w m.settings h) h remote with ⟨f | peer, w'⟩
    · exact Or.inl ⟨f, w', rfl, rfl⟩
    · exact Or.inr ⟨peer, w', _, rfl, rfl⟩

end Manager
end StateSync
