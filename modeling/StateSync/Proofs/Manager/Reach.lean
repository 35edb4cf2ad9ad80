import StateSync.Proofs.Manager.Handling

/-! What the handling of an event does to the medium: it calls on one transport, and about the peer that the event
    names (`handleEvent_stable`). What such calls keep is kept. -/

namespace StateSync

/-- What is kept by all calls on a transport about one of its peers. -/
structure Medium.Stable {μ ι : Type} [Medium μ ι] (P : μ → Prop) (h : ι) (p : Peer) : Prop where
  approve : ∀ {w}, P w → P (Medium.approve w h p).2
  disconnect : ∀ {w} reason, P w → P (Medium.disconnect w h p reason)
  send : ∀ {w} bytes d, P w → P (Medium.send w h p bytes d).2
  remoteAddress : ∀ {w}, P w → P (Medium.remoteAddress w h p).2

namespace Manager
variable {μ ι δ : Type} [Medium μ ι] {m m' : Manager ι δ} {w w' : μ} {h : ι} {p : Peer} {id : ConnectionId}
  {c : Connection} {i : Nat} {P : μ → Prop}

/-- A connection is carried by a transport, to a peer. -/
def Carries (m : Manager ι δ) (id : ConnectionId) (h : ι) (p : Peer) : Prop :=
  ∀ c, m.connections.get? id = some c → m.transportOf? c = some h ∧ c.peer = p

theorem Carries.touched (hc : m.Carries id h p) (ht : Touched m m' id) (hget : m.connections.get? id = some c) :
    m'.Carries id h p := by
  intro x hx
  obtain ⟨hi, hp⟩ := ht.connections.place hget hx
  rw [transportOf?, ht.transports, hi, hp]
  exact hc _ hget

theorem Sound.carries (hm : m.Sound) (hi : m.transports[i]? = some h) (hf : m.connections.find? i p = some id) :
    m.Carries id h p := by
  intro c hc
  obtain ⟨x, hx, rfl, rfl⟩ := (hm id).found hf
  obtain rfl := Option.some.inj (hc.symm.trans hx)
  exact ⟨hi, rfl⟩

/-! ### The calls -/

theorem hangUp_of_carries (hc : m.Carries id h p) (hget : m.connections.get? id = some c) (w : μ) (reason : String) :
    m.hangUp w id reason = Medium.disconnect w h p reason := by
  obtain ⟨hi, hp⟩ := hc c hget
  rw [hangUp, hget]
  dsimp only
  rw [hi, ← hp]

theorem sendTo_of_carries (hc : m.Carries id h p) (hget : m.connections.get? id = some c) (w : μ) (bytes : Bytes)
    (d : Delivery) : m.sendTo w c bytes d = Medium.send w h p bytes d := by
  obtain ⟨hi, hp⟩ := hc c hget
  rw [sendTo, hi, ← hp]

theorem reject_of_carries (hc : m.Carries id h p) (hget : m.connections.get? id = some c) (w : μ) (reason : String) :
    m.reject w id reason = (m.teardown id reason, Medium.disconnect w h p reason) := by
  rw [reject, hangUp_of_carries hc hget]

theorem sendStringTable_of_error (hget : m.connections.get? id = some c) {e : NetError}
    (hencode : MessageType.stringTable.encode m.strings.entries = .error e) (w : μ) :
    m.sendStringTable w id = (.error e, { m with strings := m.strings.lock }, w) := by
  have hentries : MessageType.stringTable.encode m.strings.lock.entries = .error e := hencode
  unfold sendStringTable
  dsimp only
  rw [hget]
  dsimp only
  rw [hentries]

theorem sendStringTable_of_ok (hc : m.Carries id h p) (hget : m.connections.get? id = some c) {payload : Bytes}
    (hencode : MessageType.stringTable.encode m.strings.entries = .ok payload) {r : Except NetError Unit}
    (hsend : Medium.send w h p (Frame.encode StringTable.bootstrapId payload) .ordered = (r, w')) :
    m.sendStringTable w id = (r, { m with strings := m.strings.lock }, w') := by
  have hentries : MessageType.stringTable.encode m.strings.lock.entries = .ok payload := hencode
  have hsend' : sendTo { m with strings := m.strings.lock } w c (Frame.encode StringTable.bootstrapId payload)
      .ordered = (r, w') := (sendTo_of_carries hc hget ..).trans hsend
  unfold sendStringTable
  dsimp only
  rw [hget]
  dsimp only
  rw [hentries]
  dsimp only
  rw [hsend']

/-- The acknowledgement opens the channel. If the name table cannot be sent then, the connection ends. -/
theorem receiveAck_of_error (hget : m.connections.get? id = some c) {name : String} (hname : c.session = some name)
    {e : NetError} (hsend : (m.openChannel c name).sendStringTable w id = (.error e, m', w')) :
    m.receiveAck w id (textBytes ackText) = m'.reject w' id "Failed to send string table" := by
  simp only [receiveAck, ne_eq, not_true_eq_false, if_false, hget, hname, hsend]

theorem receiveAck_of_ok (hget : m.connections.get? id = some c) {name : String} (hname : c.session = some name)
    (hsend : (m.openChannel c name).sendStringTable w id = (.ok (), m', w')) :
    m.receiveAck w id (textBytes ackText) = (m'.pushEvent (.connected id name c.remote), w') := by
  simp only [receiveAck, ne_eq, not_true_eq_false, if_false, hget, hname, hsend]

/-! ### The handlers -/

/-- What a manager says by itself, when the handling of an event leaves it as `m'`: a server the session name that it
    has made from a valid user name, and its name table, which it has locked; a client its user name, and that it has
    its session name. -/
inductive Utters (m m' : Manager ι δ) : Bytes → Prop
  | sessionName {requested : String} (server : m.isServer = true) (valid : Username.fault? requested = none)
      (taken : List String) : Utters m m' (textBytes (SessionName.resolve requested taken))
  | table {payload : Bytes} (server : m.isServer = true)
      (encoded : MessageType.stringTable.encode m.strings.entries = .ok payload)
      (locked : m'.strings = m.strings.lock) : Utters m m' (Frame.encode StringTable.bootstrapId payload)
  | username (client : m.isServer = false) : Utters m m' (textBytes m.username)
  | ack (client : m.isServer = false) : Utters m m' (textBytes ackText)

/-- The connection of a peer, if there is one, is kept. -/
def Retains (m m' : Manager ι δ) (i : Nat) (p : Peer) : Prop :=
  ∀ id, m.connections.find? i p = some id → ∃ c, m'.connections.get? id = some c

/-- The connection of a peer ends. -/
def Drops (m m' : Manager ι δ) (i : Nat) (p : Peer) : Prop :=
  ∃ id, m.connections.find? i p = some id ∧ m'.connections.get? id = none

/-- All that the handling of an event can come to for the medium, and for the connection of the peer. Without a word
    a connection ends only if the event says so. -/
inductive Response (m : Manager ι δ) (w : μ) (i : Nat) (h : ι) (e : TransportEvent) (m' : Manager ι δ) : μ → Prop
  | silent (kept : e.note ≠ .down → m.Retains m' i e.peer) : Response m w i h e m' w
  /-- Whoever has asked is not there any more. -/
  | declined (server : m.isServer = true) (new : m.connections.find? i e.peer = none) :
      Response m w i h e m' (Medium.remoteAddress w h e.peer).2
  | granted (server : m.isServer = true) (new : m.connections.find? i e.peer = none) :
      Response m w i h e m' (Medium.approve (Medium.remoteAddress w h e.peer).2 h e.peer).2
  | said {bytes : Bytes} (words : m.Utters m' bytes) (kept : m.Retains m' i e.peer) :
      Response m w i h e m' (Medium.send w h e.peer bytes .ordered).2
  | hungUp {reason : String} (ended : m.Drops m' i e.peer) :
      Response m w i h e m' (Medium.disconnect w h e.peer reason)
  /-- What was to be said could not be sent. -/
  | broke {bytes : Bytes} {reason : String} (words : m.Utters m' bytes) (ended : m.Drops m' i e.peer) :
      Response m w i h e m' (Medium.disconnect (Medium.send w h e.peer bytes .ordered).2 h e.peer reason)

/-- Two managers with the same connections and the same to say. -/
structure Alike (m₁ m : Manager ι δ) : Prop where
  side : m₁.side = m.side
  connections : m₁.connections = m.connections
  strings : m₁.strings = m.strings
  username : m₁.username = m.username

theorem Utters.congr {m₁ : Manager ι δ} {bytes : Bytes} (h : m₁.Utters m' bytes) (ha : Alike m₁ m) : m.Utters m' bytes := by
  have hserver : m₁.isServer = m.isServer := by rw [isServer, ha.side, isServer]
  cases h with
  | sessionName server valid taken => exact .sessionName (hserver ▸ server) valid taken
  | table server encoded locked =>
    rw [ha.strings] at encoded locked
    exact .table (hserver ▸ server) encoded locked
  | username client =>
    rw [ha.username]
    exact .username (hserver ▸ client)
  | ack client => exact .ack (hserver ▸ client)

theorem Response.congr {m₁ : Manager ι δ} {e : TransportEvent} (hr : m₁.Response w i h e m' w') (ha : Alike m₁ m) :
    m.Response w i h e m' w' := by
  have hserver : m₁.isServer = m.isServer := by rw [isServer, ha.side, isServer]
  have hretains : m₁.Retains m' i e.peer → m.Retains m' i e.peer := fun hk id hf => hk id (ha.connections ▸ hf)
  have hdrops : m₁.Drops m' i e.peer → m.Drops m' i e.peer := by
    rintro ⟨id, hf, hgone⟩
    exact ⟨id, ha.connections ▸ hf, hgone⟩
  cases hr with
  | silent kept => exact .silent fun hne => hretains (kept hne)
  | declined server new => exact .declined (hserver ▸ server) (ha.connections ▸ new)
  | granted server new => exact .granted (hserver ▸ server) (ha.connections ▸ new)
  | said words kept => exact .said (words.congr ha) (hretains kept)
  | hungUp ended => exact .hungUp (hdrops ended)
  | broke words ended => exact .broke (words.congr ha) (hdrops ended)

theorem Retains.of_get? (m₁ : Manager ι δ) (hf : m.connections.find? i p = some id)
    (hget : m₁.connections.get? id = some c) : m.Retains m₁ i p := by
  intro j hj
  obtain rfl := Option.some.inj (hf.symm.trans hj)
  exact ⟨c, hget⟩

theorem Drops.teardown {m₁ : Manager ι δ} (hf : m.connections.find? i p = some id) (reason : String) :
    m.Drops (m₁.teardown id reason) i p := ⟨id, hf, (get?_teardown ..).trans (if_pos rfl)⟩

section
variable {e : TransportEvent} (hf : m.connections.find? i e.peer = some id)
include hf

theorem reject_responds (hc : m.Carries id h e.peer) (hget : m.connections.get? id = some c) (w : μ) (reason : String) :
    m.Response w i h e (m.reject w id reason).1 (m.reject w id reason).2 := by
  rw [reject_of_carries hc hget]
  exact .hungUp (.teardown hf reason)

theorem receiveUsername_responds (hm : m.Wired id) (hc : m.Carries id h e.peer)
    (hget : m.connections.get? id = some c) (hs : m.isServer = true) (w : μ) (bs : Bytes) :
    m.Response w i h e (m.receiveUsername w id bs).1 (m.receiveUsername w id bs).2 := by
  obtain ⟨hook, hcases⟩ := receiveUsername_cases hget w bs
  rcases hcases with ⟨reason, heq⟩ | ⟨requested, name, -, hvalid, rfl, -, heq⟩
  · rw [heq]
    have hc' : Carries { m with hook := hook } id h e.peer := hc
    exact (reject_responds (m := { m with hook := hook }) hf hc' hget w reason).congr ⟨rfl, rfl, rfl, rfl⟩
  · obtain rfl := hm.own hget
    let m₁ := modifyConnection { m with hook := hook } c.id fun c =>
      { c with session := some (SessionName.resolve requested m.connections.sessionNames), phase := .awaitingAck }
    have hget₁ : m₁.connections.get? c.id = some _ := get?_modifyConnection hget _
    have hc₁ : m₁.Carries c.id h e.peer := hc.touched (.trans (.hook m hook c.id) (.modify _ c.id fun _ => ⟨rfl, rfl⟩)) hget
    have hwords : ∀ {m' : Manager ι δ}, m.Utters m' (textBytes (SessionName.resolve requested m.connections.sessionNames)) :=
      .sessionName hs hvalid _
    rw [heq]
    unfold assignName
    dsimp only
    rw [show m₁.sendTo w c _ .ordered = Medium.send w h e.peer _ .ordered from sendTo_of_carries (m := m) hc hget ..]
    split
    · rename_i w₁ hsend
      have hsent : w₁ = (Medium.send w h e.peer (textBytes (SessionName.resolve requested m.connections.sessionNames))
        .ordered).2 := by rw [hsend]
      rw [reject_of_carries hc₁ hget₁, hsent]
      exact .broke hwords (.teardown hf _)
    · rename_i w₁ hsend
      have hsent : w₁ = (Medium.send w h e.peer (textBytes (SessionName.resolve requested m.connections.sessionNames))
        .ordered).2 := by rw [hsend]
      rw [hsent]
      exact .said hwords (Retains.of_get? (m₁.expect c.id .ack) hf hget₁)

theorem receiveAck_responds (hm : m.Wired id) (hc : m.Carries id h e.peer) (hget : m.connections.get? id = some c)
    (hs : m.isServer = true) (w : μ) (bs : Bytes) :
    m.Response w i h e (m.receiveAck w id bs).1 (m.receiveAck w id bs).2 := by
  by_cases hbs : bs = textBytes ackText
  · subst hbs
    obtain rfl := hm.own hget
    cases hname : c.session with
    | none =>
      have hnone : m.receiveAck w c.id (textBytes ackText) = (m, w) := by
        simp only [receiveAck, ne_eq, not_true_eq_false, if_false, hget, hname]
      rw [hnone]
      exact .silent fun _ => Retains.of_get? _ hf hget
    | some name =>
      let m₁ := m.openChannel c name
      have hget₁ : m₁.connections.get? c.id = some _ := get?_modifyConnection hget _
      have hc₁ : m₁.Carries c.id h e.peer := hc.touched (.modify m c.id fun _ => ⟨rfl, rfl⟩) hget
      let m₂ : Manager ι δ := { m₁ with strings := m₁.strings.lock }
      have hc₂ : m₂.Carries c.id h e.peer := hc₁
      cases hencode : MessageType.stringTable.encode m.strings.entries with
      | error f =>
        rw [receiveAck_of_error hget hname (sendStringTable_of_error (m := m₁) hget₁ hencode w),
          reject_of_carries hc₂ hget₁]
        exact .hungUp (.teardown hf _)
      | ok payload =>
        have hwords : ∀ {m' : Manager ι δ}, m'.strings = m.strings.lock →
            m.Utters m' (Frame.encode StringTable.bootstrapId payload) := .table hs hencode
        rcases hsent : Medium.send w h e.peer (Frame.encode StringTable.bootstrapId payload) .ordered with ⟨f | u, w₁⟩
        · have hw₁ : w₁ = (Medium.send w h e.peer (Frame.encode StringTable.bootstrapId payload) .ordered).2 := by
            rw [hsent]
          rw [receiveAck_of_error hget hname (sendStringTable_of_ok (m := m₁) hc₁ hget₁ hencode hsent),
            reject_of_carries hc₂ hget₁, hw₁]
          exact .broke (hwords (teardown_keeps m₂ c.id _).2.1) (.teardown hf _)
        · have hw₁ : w₁ = (Medium.send w h e.peer (Frame.encode StringTable.bootstrapId payload) .ordered).2 := by
            rw [hsent]
          rw [receiveAck_of_ok hget hname (sendStringTable_of_ok (m := m₁) hc₁ hget₁ hencode hsent), hw₁]
          exact .said (hwords rfl) (Retains.of_get? (m₂.pushEvent _) hf hget₁)
  · have hreject : m.receiveAck w id bs = m.reject w id "Invalid handshake acknowledgement" := by
      simp only [receiveAck, hbs, ne_eq, not_false_eq_true, if_true]
    rw [hreject]
    exact reject_responds hf hc hget w _

theorem receiveAssignedName_responds (hm : m.Wired id) (hc : m.Carries id h e.peer)
    (hget : m.connections.get? id = some c) (hs : m.isServer = false) (w : μ) (bs : Bytes) :
    m.Response w i h e (m.receiveAssignedName w id bs).1 (m.receiveAssignedName w id bs).2 := by
  obtain rfl := hm.own hget
  unfold receiveAssignedName
  split
  · exact reject_responds hf hc hget w _
  · rename_i name _
    rw [hget]
    dsimp only
    rw [sendTo_of_carries hc hget]
    split
    · rename_i w₁ hsend
      have hw₁ : w₁ = (Medium.send w h e.peer (textBytes ackText) .ordered).2 := by rw [hsend]
      rw [reject_of_carries hc hget, hw₁]
      exact .broke (.ack hs) (.teardown hf _)
    · rename_i w₁ hsend
      have hw₁ : w₁ = (Medium.send w h e.peer (textBytes ackText) .ordered).2 := by rw [hsend]
      have hget₁ : (m.openChannel c name).connections.get? c.id = some _ := get?_modifyConnection hget _
      rw [hw₁]
      exact .said (.ack hs) (Retains.of_get? ((m.openChannel c name).pushEvent _) hf hget₁)

theorem sendUsername_responds (hc : m.Carries id h e.peer) (hget : m.connections.get? id = some c) (hid : c.id = id)
    (hs : m.isServer = false) (w : μ) : m.Response w i h e (m.sendUsername w c).1 (m.sendUsername w c).2 := by
  subst hid
  unfold sendUsername
  rw [sendTo_of_carries hc hget]
  split
  · rename_i w₁ hsend
    have hw₁ : w₁ = (Medium.send w h e.peer (textBytes m.username) .ordered).2 := by rw [hsend]
    rw [reject_of_carries hc hget, hw₁]
    exact .broke (.username hs) (.teardown hf _)
  · rename_i w₁ hsend
    have hw₁ : w₁ = (Medium.send w h e.peer (textBytes m.username) .ordered).2 := by rw [hsend]
    have hget₁ : (m.setPhase c.id .awaitingAssignedName).connections.get? c.id = some _ := get?_modifyConnection hget _
    rw [hw₁]
    exact .said (.username hs) (Retains.of_get? ((m.setPhase c.id .awaitingAssignedName).expect c.id _) hf hget₁)

end

/-! ### Events -/

theorem handleApproval_responds (hm : m.Sound) (w : μ) (i : Nat) (h : ι) (p : Peer) :
    m.Response w i h (.approvalRequest p) (m.handleApproval w i h p).1 (m.handleApproval w i h p).2 := by
  cases hs : m.isServer with
  | false =>
    simp only [handleApproval, hs]
    exact .silent fun _ id hf => (hm id).found hf |>.imp fun _ hc => hc.1
  | true =>
    cases hf : m.connections.find? i p with
    | some id =>
      simp only [handleApproval, hs, enroll, hf, approve, if_pos (hm.phase?_ne id)]
      exact .silent fun _ id hf => (hm id).found hf |>.imp fun _ hc => hc.1
    | none =>
      have hdeclined : ∀ {m' : Manager ι δ} {w₁ : μ} {remote : Option Address},
          Medium.remoteAddress w h p = (remote, w₁) → m.Response w i h (.approvalRequest p) m' w₁ := by
        intro m' w₁ remote hremote
        have hr : m.Response w i h (.approvalRequest p) m' _ := .declined hs hf
        rwa [show Medium.remoteAddress w h (TransportEvent.approvalRequest p).peer = _ from hremote] at hr
      have hgranted : ∀ {m' : Manager ι δ} {w₁ w₂ : μ} {remote : Option Address} {r : Except NetError Unit},
          Medium.remoteAddress w h p = (remote, w₁) → Medium.approve w₁ h p = (r, w₂) →
            m.Response w i h (.approvalRequest p) m' w₂ := by
        intro m' w₁ w₂ remote r hremote happrove
        have hr : m.Response w i h (.approvalRequest p) m' _ := .granted hs hf
        rwa [show Medium.remoteAddress w h (TransportEvent.approvalRequest p).peer = _ from hremote,
          show Medium.approve w₁ h (TransportEvent.approvalRequest p).peer = _ from happrove] at hr
      rcases hremote : Medium.remoteAddress w h p with ⟨_ | remote, w₁⟩
      · simp only [handleApproval, hs, enroll, hf, hremote]
        exact hdeclined hremote
      · simp only [handleApproval, hs, enroll, hf, hremote, approve]
        simp only [Bool.not_true, Bool.false_eq_true, if_false]
        split
        · exact hdeclined hremote
        · split
          · rename_i happrove
            exact hgranted hremote happrove
          · rename_i happrove
            split <;> exact hgranted hremote happrove

theorem handleConnected_responds (hm : m.Sound) (hi : m.transports[i]? = some h) (w : μ) (p : Peer) (reason : String) :
    m.Response w i h (.connected p reason) (m.handleConnected w i p).1 (m.handleConnected w i p).2 := by
  have hsame : m.Response w i h (.connected p reason) m w :=
    .silent fun _ id hf => (hm id).found hf |>.imp fun _ hc => hc.1
  unfold handleConnected
  split
  · exact hsame
  · rename_i c hc
    obtain ⟨id, hf, hget⟩ := Option.bind_eq_some_iff.mp hc
    obtain rfl := (hm id).own hget
    split
    · exact .silent fun _ => Retains.of_get? _ hf (get?_modifyConnection hget fun c => { c with phase := .awaitingUsername })
    · rename_i hside _
      exact sendUsername_responds (e := .connected p reason) hf (hm.carries hi hf) hget rfl (by rw [isServer, hside]; rfl) w
    · exact hsame

theorem handleData_responds (hm : m.Sound) (hi : m.transports[i]? = some h) (w : μ) (p : Peer) (bs : Bytes) :
    m.Response w i h (.data p bs) (m.handleData w i p bs).1 (m.handleData w i p bs).2 := by
  have hsame : m.Response w i h (.data p bs) m w :=
    .silent fun _ id hf => (hm id).found hf |>.imp fun _ hc => hc.1
  unfold handleData
  split
  · exact hsame
  · rename_i id hf
    obtain ⟨c, hget, -⟩ := (hm id).found hf
    have hc : (m.clearPending id).Carries id h p := hm.carries hi hf
    have hwired : (m.clearPending id).Wired id := (hm id).toWired.of_eq rfl rfl
    have hcleared : Alike (m.clearPending id) m := ⟨rfl, rfl, rfl, rfl⟩
    have hin := (hm id).phase hget
    split
    · rename_i f hpend
      rw [hpend] at hin
      cases f with
      | username =>
        have hs : m.isServer = true := by
          simp only [Connection.InPhase] at hin
          split at hin <;> simp_all [isServer]
        exact (receiveUsername_responds (m := m.clearPending id) (e := .data p bs) hf hwired hc hget hs w bs).congr hcleared
      | ack =>
        have hs : m.isServer = true := by
          simp only [Connection.InPhase] at hin
          split at hin <;> simp_all [isServer]
        exact (receiveAck_responds (m := m.clearPending id) (e := .data p bs) hf hwired hc hget hs w bs).congr hcleared
      | assignedName =>
        have hs : m.isServer = false := by
          simp only [Connection.InPhase] at hin
          split at hin <;> simp_all [isServer]
        exact (receiveAssignedName_responds (m := m.clearPending id) (e := .data p bs) hf hwired hc hget hs w bs).congr hcleared
    · split
      · exact hsame
      · rename_i ch _
        obtain ⟨strings, received, heq, -⟩ := m.receiveFrame_eq ch bs
        rw [heq]
        exact .silent fun _ => Retains.of_get? { m with strings := strings, received := received } hf hget

/-- The handling of an event comes to one of a few things for the medium. -/
theorem handleEvent_responds (hm : m.Sound) (hi : m.transports[i]? = some h) (w : μ) (e : TransportEvent) :
    m.Response w i h e (m.handleEvent w i h e).1 (m.handleEvent w i h e).2 := by
  cases e with
  | approvalRequest p => exact handleApproval_responds hm w i h p
  | connected p reason => exact handleConnected_responds hm hi w p reason
  | disconnected p reason => exact .silent fun hne => absurd rfl hne
  | data p bs => exact handleData_responds hm hi w p bs

/-- What all calls on a transport about one of its peers keep is kept. -/
theorem handleEvent_stable (hm : m.Sound) (hi : m.transports[i]? = some h) {e : TransportEvent}
    (hs : Medium.Stable P h e.peer) (hw : P w) : P (m.handleEvent w i h e).2 := by
  have hr := handleEvent_responds hm hi w e
  generalize (m.handleEvent w i h e).2 = w' at hr ⊢
  cases hr with
  | silent kept => exact hw
  | declined server new => exact hs.remoteAddress hw
  | granted server new => exact hs.approve (hs.remoteAddress hw)
  | said words kept => exact hs.send _ _ hw
  | hungUp ended => exact hs.disconnect _ hw
  | broke words ended => exact hs.disconnect _ (hs.send _ _ hw)

end Manager
end StateSync
