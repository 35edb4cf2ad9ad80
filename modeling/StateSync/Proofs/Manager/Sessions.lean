import StateSync.Proofs.Connection.Name
import StateSync.Proofs.Manager.Chronicle

/-! The session names of a server: no two live connections have the same, and a name is taken exactly while a
    connection lives to which it was assigned (`run_sessionNames`). -/

namespace StateSync
variable {μ ι δ : Type}

namespace Manager
variable {m m' : Manager ι δ} {id : ConnectionId} {name : String}

/-- The session name of a live connection, also before it is acknowledged. -/
def session? (m : Manager ι δ) (id : ConnectionId) : Option String := (m.connections.get? id).bind (·.session)

theorem session?_eq (m : Manager ι δ) (id : ConnectionId) : m.session? id = (m.standing? id).bind (·.1) := by
  rw [session?, standing?]
  cases m.connections.get? id <;> rfl

theorem isLive_eq (m : Manager ι δ) (id : ConnectionId) : m.connections.isLive id = (m.standing? id).isSome := by
  rw [ConnectionTable.isLive, standing?, Option.isSome_map]

theorem session?_eq_some_iff : m.session? id = some name ↔
    ∃ c, m.connections.get? id = some c ∧ c.session = some name := Option.bind_eq_some_iff

theorem mem_sessionNames : name ∈ m.connections.sessionNames ↔ ∃ id, m.session? id = some name := by
  simp only [ConnectionTable.sessionNames, List.mem_filterMap, ConnectionTable.mem_live, session?_eq_some_iff]
  constructor
  · rintro ⟨c, ⟨id, hget⟩, hname⟩
    exact ⟨id, c, hget, hname⟩
  · rintro ⟨id, c, hget, hname⟩
    exact ⟨c, ⟨id, hget⟩, hname⟩

/-- What is live after some connections have ended is what it was. -/
theorem Parts.get?_of_isLive {es : List NetEvent} (hp : Parts m m' es) (hlive : m'.connections.isLive id = true) :
    m'.connections.get? id = m.connections.get? id := by
  rcases hp.each id with ⟨hget, -⟩ | ⟨c, reason, -, hgone, -⟩
  · exact hget
  · rw [ConnectionTable.isLive, hgone] at hlive
    cases hlive

theorem Parts.session? {es : List NetEvent} (hp : Parts m m' es) (hname : m'.session? id = some name) :
    m.session? id = some name := by
  obtain ⟨c, hget, hses⟩ := session?_eq_some_iff.mp hname
  rw [hp.get?_of_isLive (by rw [ConnectionTable.isLive, hget]; rfl)] at hget
  exact session?_eq_some_iff.mpr ⟨c, hget, hses⟩

variable [Medium μ ι] {w w' : μ} {i : Nat} {h : ι} {e : TransportEvent}

/-- The peer of a connection has sent a valid user name, which the hook allows, and is sent its session name. -/
def Grants (m : Manager ι δ) (w : μ) (h : ι) (e : TransportEvent) (w' : μ) (id : ConnectionId)
    (requested name : String) : Prop :=
  ∃ c bs, m.connections.get? id = some c ∧ e = .data c.peer bs ∧ textOfBytes? bs = some requested ∧
    Username.IsValid requested ∧ m.Allows ⟨id, c.remote, requested, name⟩ ∧
    Medium.send w h c.peer (textBytes name) .ordered = (.ok (), w')

/-- A connection keeps its session while it lives. It gets one with its user name, when it had none. -/
theorem Outcome.session_cases {es : List NetEvent} (ho : Outcome m w i h e m' w' id es) (hs : m.side = .server) :
    (m'.session? id = m.session? id ∧ m'.connections.isLive id = m.connections.isLive id) ∨
    (m'.session? id = none ∧ (id = m.connections.nextId ∨ m'.connections.isLive id = false)) ∨
    ∃ requested name, m.session? id = none ∧ m.connections.isLive id = true ∧ m'.session? id = some name ∧
      name = SessionName.resolve requested m.connections.sessionNames ∧ Grants m w h e w' id requested name := by
  have hgone : m'.standing? id = none → m'.session? id = none ∧ m'.connections.isLive id = false := by
    intro after
    simp [session?_eq, isLive_eq, after]
  cases ho with
  | kept same =>
    left
    simp [session?_eq, isLive_eq, same]
  | entered new after => exact Or.inr (Or.inl ⟨by simp [session?_eq, after], Or.inl new⟩)
  | named live frame bare text valid resolved allowed sent after =>
    refine Or.inr (Or.inr ⟨_, _, ?_, ?_, ?_, resolved, _, _, live, frame, text, valid, allowed, sent⟩)
    · simp [session?_eq, standing?_of_get? live, bare.1]
    · simp [isLive_eq, standing?_of_get? live]
    · simp [session?_eq, after]
  | opened ack session bare after =>
    left
    simp [session?_eq, isLive_eq, standing?_of_get? ack.live, session, after]
  | lapsed ack session bare after =>
    obtain ⟨hnone, hdead⟩ := hgone after
    exact Or.inr (Or.inl ⟨hnone, Or.inr hdead⟩)
  | accepted client => cases hs.symm.trans client
  | ended live after =>
    obtain ⟨hnone, hdead⟩ := hgone after
    exact Or.inr (Or.inl ⟨hnone, Or.inr hdead⟩)

/-- A connection ends when its peer has gone, or has not acknowledged its name as it should. -/
theorem get?_handleEvent_of_failed (hm : m.Sound) {c : Connection} (hget : m.connections.get? id = some c)
    (hfailed : (∃ reason, e = .disconnected c.peer reason) ∨
      m.pending.get? id = some .ack ∧ ∃ bs, bs ≠ textBytes ackText ∧ e = .data c.peer bs) (w : μ) (h : ι) :
    (m.handleEvent w c.transport h e).1.connections.get? id = none := by
  have hfind := (hm id).entered hget
  rcases hfailed with ⟨reason, rfl⟩ | ⟨hawaited, bs, hbs, rfl⟩
  · simp only [handleEvent, handleDisconnected, hfind, get?_teardown, if_true]
  · simp only [handleEvent, handleData, hfind, hawaited, receiveHandshake, receiveAck, hbs, ne_eq, not_false_eq_true,
      if_true, reject, get?_teardown]

end Manager

variable [Medium μ ι]

/-- The event has given a connection its session name. -/
def Sight.Assigns (x : Sight μ ι δ) (id : ConnectionId) (name : String) : Prop :=
  x.manager.session? id = none ∧ x.after.1.session? id = some name

/-- The peer of a connection has sent a valid user name, which the hook allows, and is sent its session name. -/
def Sight.Grants (x : Sight μ ι δ) (id : ConnectionId) (requested name : String) : Prop :=
  x.manager.Grants x.medium x.transport x.event x.after.2 id requested name

/-- The peer of a connection has gone, or has not acknowledged its session name as it should. -/
def Sight.Fails (x : Sight μ ι δ) (id : ConnectionId) : Prop :=
  ∃ c, x.manager.connections.get? id = some c ∧ c.transport = x.place ∧
    ((∃ reason, x.event = .disconnected c.peer reason) ∨
      x.manager.pending.get? id = some .ack ∧ ∃ bs, bs ≠ Manager.textBytes Manager.ackText ∧ x.event = .data c.peer bs)

namespace Chronicle
variable {k : Chronicle μ ι δ} {i : Nat} {h : ι} {s : Manager ι δ × μ} {es : List NetEvent}

/-- The sessions are what was assigned to connections that live, and differ. -/
structure Named (k : Chronicle μ ι δ) : Prop where
  assigned : ∀ {id name}, k.manager.session? id = some name → ∃ x ∈ k.sights, x.Assigns id name
  held : ∀ {x id name}, x ∈ k.sights → x.Assigns id name → k.manager.connections.isLive id = true →
    k.manager.session? id = some name
  known : ∀ {x id name}, x ∈ k.sights → x.Assigns id name → id.val < k.manager.connections.slots.length
  apart : ∀ {id id' name}, k.manager.session? id = some name → k.manager.session? id' = some name → id = id'

theorem named_create (settings : Settings) (w : μ) : (create .server settings w : Chronicle μ ι δ).Named := by
  refine ⟨fun hname => ?_, fun hx => ?_, fun hx => ?_, fun hname => ?_⟩
  · cases hname
  · cases hx
  · cases hx
  · cases hname

theorem Named.handle (hn : k.Named) (hk : k.Fair) (hi : k.manager.transports[i]? = some h) (e : TransportEvent) :
    (k.handle i h e).Named := by
  obtain ⟨id, es, houtcome, hsettles, -⟩ := hk.handle_outcome hi e
  let x : Sight μ ι δ := ⟨k.manager, k.medium, i, h, e⟩
  let k' := k.handle i h e
  -- A connection goes on with its session, or has none, or has just been given a free name.
  have hstep : ∀ j, (k'.manager.session? j = k.manager.session? j ∧
        k'.manager.connections.isLive j = k.manager.connections.isLive j) ∨
      (k'.manager.session? j = none ∧ (j = k.manager.connections.nextId ∨ k'.manager.connections.isLive j = false)) ∨
      (j = id ∧ k.manager.session? j = none ∧ k.manager.connections.isLive j = true ∧
        ∃ free, free ∉ k.manager.connections.sessionNames ∧ k'.manager.session? j = some free) := by
    intro j
    by_cases hj : j = id
    · subst hj
      rcases houtcome.session_cases (Manager.side_eq_server hk.server) with hsame | hnone |
        ⟨requested, name, hnone, hlive, hsome, rfl, -⟩
      · exact Or.inl hsame
      · exact Or.inr (Or.inl hnone)
      · exact Or.inr (Or.inr ⟨rfl, hnone, hlive, _, SessionName.resolve_not_mem requested _, hsome⟩)
    · have hget : k'.manager.connections.get? j = k.manager.connections.get? j := hsettles.connections.get? hj
      exact Or.inl ⟨by rw [Manager.session?, hget, Manager.session?],
        by rw [ConnectionTable.isLive, hget, ConnectionTable.isLive]⟩
  have hsights : ∀ {y}, y ∈ k'.sights → y ∈ k.sights ∨ y = x := by
    intro y hy
    simpa [k', x, Chronicle.handle] using hy
  have hnew : x ∈ k'.sights := List.mem_append_right _ (List.mem_singleton_self x)
  refine ⟨fun {j name} hname => ?_, fun {y j name} hy ha hlive => ?_, fun {y j name} hy ha => ?_,
    fun {j j' name} hname hname' => ?_⟩
  · rcases hstep j with ⟨hsame, -⟩ | ⟨hnone, -⟩ | ⟨-, hnone, -⟩
    · obtain ⟨y, hy, ha⟩ := hn.assigned (hsame ▸ hname)
      exact ⟨y, List.mem_append_left _ hy, ha⟩
    · cases hnone.symm.trans hname
    · exact ⟨x, hnew, hnone, hname⟩
  · rcases hsights hy with hy | rfl
    · rcases hstep j with ⟨hsame, hlive'⟩ | ⟨-, rfl | hdead⟩ | ⟨-, hnone, hlive', -⟩
      · rw [hsame]
        exact hn.held hy ha (hlive' ▸ hlive)
      · exact absurd (hn.known hy ha) (Nat.lt_irrefl _)
      · cases hdead.symm.trans hlive
      · cases hnone.symm.trans (hn.held hy ha hlive')
    · exact ha.2
  · rcases hsights hy with hy | rfl
    · exact Nat.lt_of_lt_of_le (hn.known hy ha) hsettles.connections.grown
    · obtain ⟨c, hget, -⟩ := Manager.session?_eq_some_iff.mp ha.2
      exact ConnectionTable.lt_of_get? hget
  · rcases hstep j with ⟨hsame, -⟩ | ⟨hnone, -⟩ | ⟨hj, -, -, free, hfree, hsome⟩
    · rcases hstep j' with ⟨hsame', -⟩ | ⟨hnone, -⟩ | ⟨-, -, -, free, hfree, hsome⟩
      · exact hn.apart (hsame ▸ hname) (hsame' ▸ hname')
      · cases hnone.symm.trans hname'
      · obtain rfl := Option.some.inj (hsome.symm.trans hname')
        exact absurd (Manager.mem_sessionNames.mpr ⟨j, hsame ▸ hname⟩) hfree
    · cases hnone.symm.trans hname
    · rcases hstep j' with ⟨hsame', -⟩ | ⟨hnone, -⟩ | ⟨hj', -⟩
      · obtain rfl := Option.some.inj (hsome.symm.trans hname)
        exact absurd (Manager.mem_sessionNames.mpr ⟨j', hsame' ▸ hname'⟩) hfree
      · cases hnone.symm.trans hname'
      · exact hj.trans hj'.symm

theorem Named.parts (hn : k.Named) (hp : Manager.Parts k.manager s.1 es) : (k.withState s).Named := by
  refine ⟨fun hname => hn.assigned (hp.session? hname), fun {y j name} hy ha hl => ?_, fun hy ha => ?_,
    fun hname hname' => hn.apart (hp.session? hname) (hp.session? hname')⟩
  · have hget := hp.get?_of_isLive hl
    rw [withState, ConnectionTable.isLive, hget] at hl
    rw [withState, Manager.session?, hget]
    exact hn.held hy ha hl
  · exact Nat.lt_of_lt_of_le (hn.known hy ha) hp.ages.grown

theorem keeps_named : Keeps (Named : Chronicle μ ι δ → Prop) :=
  ⟨fun e hk hn hi => hn.handle hk hi e, fun _ hn hp => hn.parts hp,
    fun hn => ⟨hn.assigned, hn.held, hn.known, hn.apart⟩⟩

end Chronicle

/-- A name is assigned only when it is granted. It is the one asked for, or a numbered one. -/
theorem Sight.Fair.grants {x : Sight μ ι δ} (hx : x.Fair) {id : ConnectionId} {name : String} (ha : x.Assigns id name) :
    ∃ requested, x.Grants id requested name ∧
      (name = requested ∨ ∃ n, 2 ≤ n ∧ name = SessionName.numbered requested n) := by
  obtain ⟨hnone, hsome⟩ := ha
  obtain ⟨j, hsettles, es, -, houtcome⟩ := hx.concludes
  have hj : id = j := by
    by_contra hne
    rw [Manager.session?, hsettles.connections.get? hne] at hsome
    cases hnone.symm.trans hsome
  subst hj
  rcases houtcome.session_cases (Manager.side_eq_server hx.server) with ⟨hsame, -⟩ | ⟨hnone', -⟩ |
    ⟨requested, name', -, -, hname, hresolved, hgrants⟩
  · cases hnone.symm.trans (hsame.symm.trans hsome)
  · cases hnone'.symm.trans hsome
  · obtain rfl := Option.some.inj (hname.symm.trans hsome)
    refine ⟨requested, hgrants, ?_⟩
    rcases SessionName.resolve_cases requested x.manager.connections.sessionNames with ⟨-, heq⟩ | ⟨-, n, hn, heq, -⟩
    · exact Or.inl (hresolved.trans heq)
    · exact Or.inr ⟨n, hn, hresolved.trans heq⟩

/-- After any calls on a server, with whatever its transports report, whomever its hook denies and whichever packets
    cannot be sent: no two live connections have the same session name; a name is taken exactly if it was assigned to
    a connection that lives; a name is assigned only to a peer whose valid user name it is, with a number from two on
    behind it or without; and a connection whose peer goes, whose acknowledgement is wrong or which the application
    disconnects does not live on. -/
theorem Chronicle.run_sessionNames (settings : Settings) (w : μ) (calls : List (Manager.Call μ ι δ)) :
    let k : Chronicle μ ι δ := (Chronicle.create .server settings w).run calls
    (∀ id id' c c' name, k.manager.connections.get? id = some c → k.manager.connections.get? id' = some c' →
      c.session = some name → c'.session = some name → id = id') ∧
    (∀ name, name ∈ k.manager.connections.sessionNames ↔
      ∃ x ∈ k.sights, ∃ id, x.Assigns id name ∧ k.manager.connections.isLive id = true) ∧
    (∀ x ∈ k.sights, ∀ id name, x.Assigns id name → ∃ requested, x.Grants id requested name ∧
      (name = requested ∨ ∃ n, 2 ≤ n ∧ name = SessionName.numbered requested n)) ∧
    (∀ x ∈ k.sights, ∀ id, x.Fails id → x.after.1.connections.isLive id = false) ∧
    ∀ id reason, (k.perform (.disconnect id reason)).manager.connections.isLive id = false := by
  obtain ⟨hk, hn⟩ := Chronicle.keeps_named.run (Chronicle.fair_create settings w)
    (Chronicle.named_create (δ := δ) settings w) calls
  dsimp only
  refine ⟨fun id id' c c' name hget hget' hname hname' => ?_, fun name => ?_, fun x hx id name ha => ?_,
    fun x hx id hfails => ?_, fun id reason => ?_⟩
  · exact hn.apart (Manager.session?_eq_some_iff.mpr ⟨c, hget, hname⟩)
      (Manager.session?_eq_some_iff.mpr ⟨c', hget', hname'⟩)
  · rw [Manager.mem_sessionNames]
    constructor
    · rintro ⟨id, hname⟩
      obtain ⟨x, hx, ha⟩ := hn.assigned hname
      obtain ⟨c, hget, -⟩ := Manager.session?_eq_some_iff.mp hname
      exact ⟨x, hx, id, ha, by simp [ConnectionTable.isLive, hget]⟩
    · rintro ⟨x, hx, id, ha, hlive⟩
      exact ⟨id, hn.held hx ha hlive⟩
  · exact (hk.sights x hx).grants ha
  · obtain ⟨c, hget, hplace, hfailed⟩ := hfails
    have hgone := Manager.get?_handleEvent_of_failed (hk.sights x hx).sound hget hfailed x.medium x.transport
    rw [hplace] at hgone
    simp [ConnectionTable.isLive, Sight.after, hgone]
  · simp only [Chronicle.perform, Chronicle.withState, Manager.perform, Manager.disconnect]
    split
    · simp [ConnectionTable.isLive, Manager.reject, Manager.get?_teardown]
    · rename_i hdead
      simpa using hdead

end StateSync
