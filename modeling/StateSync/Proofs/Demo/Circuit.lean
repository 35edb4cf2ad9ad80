import StateSync.Proofs.Demo.Pace
import StateSync.Proofs.System.Traffic

/-! A server that sends the states of a world and a client that takes them in and acknowledges them, on a network on
    which anybody else does what they like. The work of both is split into the smallest steps, which may come in any
    order; each keeps that nothing runs ahead of the client (`Circuit.Sound`). -/

namespace StateSync
open Network (Act)

structure Circuit where
  duet : Duet UInt32 GameState
  world : World
  buffer : StateBuffer

/-- What a server says by itself is no state. -/
theorem Manager.Utters.not_reads {δ : Type} {m m' : Manager Address δ} {frame : Bytes} {x : GameState}
    (h : m.Utters m' frame) (hs : m.isServer = true) : ¬ MessageType.state.Reads Server.stateId frame x := by
  rintro ⟨payload, hframe, -⟩
  cases h with
  | sessionName server valid taken =>
    obtain ⟨b, bs, htext, hb⟩ := SessionName.toUTF8_resolve valid taken
    obtain ⟨rfl, -⟩ := List.cons.inj (hframe.symm.trans htext)
    exact absurd hb (by decide)
  | table server encoded locked =>
    obtain ⟨hid, -⟩ := List.cons.inj hframe
    exact absurd hid (by decide)
  | username client => cases client.symm.trans hs
  | ack client => cases client.symm.trans hs

theorem Server.attends_enrolled (settings : Settings) {n : Network} (hn : n.Sound) :
    (Server.enrolled settings).Attends n where
  sound id := (Manager.sound_create .server settings id).of_eq rfl rfl rfl rfl
  server := rfl
  net := hn
  nodup := List.nodup_nil
  bound h := by cases h
  foreign h := by cases h
  lost h := by cases (Manager.at?_of_no_transports rfl _ _).symm.trans h
  linked h := by cases h

theorem Server.strings_enrolled (settings : Settings) : (Server.enrolled settings).strings.Sound :=
  ⟨show Server.names.Nodup by decide, show Server.names.length ≤ StringTable.capacity by decide, rfl⟩

theorem Player.fits_enrolled (settings : Settings) : Party.Fits (κ := Unit) (.client ()) (Player.enrolled settings) :=
  have hfits := System.fits_create (κ := Unit) (δ := GameState) (.client ()) settings
  ⟨fun id => (hfits.sound id).of_eq rfl rfl rfl rfl, rfl, List.nodup_nil, hfits.table, hfits.single⟩

/-- Of its events a client only goes by those that tell of an end. -/
theorem Player.foldl_handleEvent (events : List NetEvent) (p : Player) :
    (events.foldl handleEvent p).manager = p.manager ∧ ((events.foldl handleEvent p).buffer = p.buffer ∨
      ((events.foldl handleEvent p).buffer = p.buffer.reset ∧ ∃ e ∈ events, e.isEnd = true)) := by
  induction events generalizing p with
  | nil => exact ⟨rfl, Or.inl rfl⟩
  | cons e events ih =>
    obtain ⟨hmanager, hbuffer⟩ := ih (handleEvent p e)
    cases e with
    | connected j name remote =>
      exact ⟨hmanager, hbuffer.imp_right fun ⟨hreset, e, he, hend⟩ => ⟨hreset, e, List.mem_cons_of_mem _ he, hend⟩⟩
    | disconnected j name reason =>
      exact ⟨hmanager, Or.inr ⟨hbuffer.elim id And.left, _, List.mem_cons_self, rfl⟩⟩
    | connectFailed remote reason =>
      exact ⟨hmanager, Or.inr ⟨hbuffer.elim id And.left, _, List.mem_cons_self, rfl⟩⟩

namespace Circuit
variable {s : Circuit} {a b : Address} {p q : Peer} {st : LinkState}

/-! ### The invariant -/

/-- Nothing runs ahead of the client: the ticks that are acknowledged, be it on their way across a link, with the server
    or in the books of the world, have been reached, and the states that come in are full or stand on such a tick. -/
structure Paced (s : Circuit) (a : Address) (p : Peer) (b : Address) (q : Peer) : Prop where
  up : ∀ {frame tick}, s.duet.client.strings ≠ StringTable.create → .frame frame ∈ s.duet.net.notes a p →
    MessageType.stateAck.Reads Server.ackId frame tick → s.buffer.Reached tick
  down : ∀ {frame x}, .frame frame ∈ s.duet.net.notes b q → MessageType.state.Reads Server.stateId frame x →
    s.buffer.Admits x
  received : ∀ r ∈ s.duet.client.received, s.buffer.Admits r.2
  heard : ∀ {c}, s.duet.server.at? a p = some c → ∀ r ∈ s.duet.server.received, r.1.connection = c.id →
    s.buffer.Reached r.2
  acked : ∀ {c}, s.duet.server.at? a p = some c → ∀ {tick}, s.world.acked.get? c.id = some tick → s.buffer.Reached tick

/-- The server knows of the connections that it has had only, and the client of no state once it has lost its own. -/
structure Sound (s : Circuit) : Prop where
  duet : s.duet.Orderly
  kinds : s.duet.server.registry = Server.kinds
  names : s.duet.server.strings.names = Server.names
  client : s.duet.client.registry = Player.kinds
  concluded : s.duet.client.Concluded
  heard : ∀ r ∈ s.duet.server.received, r.1.connection.val < s.duet.server.connections.slots.length
  acked : ∀ {id tick}, s.world.acked.get? id = some tick → id.val < s.duet.server.connections.slots.length
  world : s.world.Sound
  buffer : s.buffer.Sound
  paced : ∀ {a p b q st}, s.duet.Links a p b q st → s.Paced a p b q

namespace Sound

theorem names_ne (h : s.Sound) : s.duet.server.strings.names ≠ StringTable.create.names := by
  rw [h.names]
  decide

/-- A client has its name table before the server hears any message of it. -/
theorem taught (h : s.Sound) (hl : s.duet.Links a p b q st) {c : Connection} (hc : s.duet.server.at? a p = some c)
    (hphase : c.phase = .connected) {note : Note} (hmem : note ∈ s.duet.net.notes a p) :
    s.duet.client.strings ≠ StringTable.create := by
  have htalk := h.duet.talks hl
  obtain ⟨x, hx⟩ := htalk.client_some
  rw [hc, hx] at htalk
  obtain ⟨-, hnames | hnil⟩ := htalk.over_of_server hphase
  · intro hnew
    rw [hnew] at hnames
    exact h.names_ne hnames.symm
  · rw [hnil] at hmem
    cases hmem

/-! ### Calls -/

theorem serve (h : s.Sound) {c : Manager.Call Network Address UInt32} (hc : c.IsQuiet) :
    Sound { s with duet := s.duet.serve c } := by
  have hduet := h.duet.sound
  have hm := hduet.server.sound
  have hnodup := hduet.server.nodup
  have hgrown := (Manager.perform_advances hm s.duet.net c).ages.grown
  have hreceived : ∀ r ∈ (s.duet.serve c).server.received,
      r ∈ s.duet.server.received ∨ ∃ a p x, s.duet.server.Due s.duet.net a p x r :=
    fun _ hr => Manager.perform_received hm hnodup hduet.net hc hr
  have hknown : ∀ r ∈ (s.duet.serve c).server.received,
      r.1.connection.val < s.duet.server.connections.slots.length := by
    intro r hr
    rcases hreceived r hr with hold | ⟨a, p, x, hat, -, hid, -⟩
    · exact h.heard r hold
    · rw [hid]
      exact hm.lt_of_at? hnodup hat
  refine ⟨h.duet.serve hc.isStep hc.isOrdinary, (Manager.perform_registry hm s.duet.net hc).trans h.kinds,
    (Manager.perform_names hm hduet.side_server s.duet.net hc).trans h.names, h.client, h.concluded,
    fun r hr => Nat.lt_of_lt_of_le (hknown r hr) hgrown, fun hget => Nat.lt_of_lt_of_le (h.acked hget) hgrown, h.world,
    h.buffer, fun {a p b q st} hl => ?_⟩
  obtain ⟨st₀, hl₀⟩ := hl.of_serve hduet h.duet.talks hc.isStep hc.isOrdinary
  have hpaced := h.paced hl₀
  -- What is known of a connection that is there now was known of it before: nothing is known of new ones.
  have hseat : ∀ {x}, (s.duet.serve c).server.at? a p = some x → x.id.val < s.duet.server.connections.slots.length →
      ∃ x₀, s.duet.server.at? a p = some x₀ ∧ x₀.id = x.id := fun hat hlt =>
    ((hduet.does_server hc.isStep).seat_or_new hm hnodup hat).resolve_right (Nat.not_le.mpr hlt)
  refine ⟨fun hown hmem hr => hpaced.up hown (hl₀.near_serve hduet hc.isStep hmem) hr, fun hmem hr => ?_,
    hpaced.received, fun {x} hat r hr hid => ?_, fun {x} hat {tick} htick => ?_⟩
  · rcases hl₀.far_serve hduet hc.isStep hmem with hold | hgives | hutters
    · exact hpaced.down hold hr
    · exact absurd hgives hc.not_gives
    · exact absurd hr (hutters.not_reads hduet.side_server)
  · obtain ⟨x₀, hx₀, heq⟩ := hseat hat (hid ▸ hknown r hr)
    rcases hreceived r hr with hold | ⟨a', p', y, hy, hphase, hid', frame, hmem, hread⟩
    · exact hpaced.heard hx₀ r hold (hid.trans heq.symm)
    · -- It has come in on this connection.
      obtain ⟨rfl, rfl⟩ := hm.seat_unique hnodup hy hx₀ (hid'.symm.trans (hid.trans heq.symm))
      rw [h.kinds] at hread
      exact hpaced.up (h.taught hl₀ hy hphase hmem) hmem (Server.reads_of_read? h.names hread)
  · obtain ⟨x₀, hx₀, heq⟩ := hseat hat (h.acked htick)
    exact hpaced.acked hx₀ (heq ▸ htick)

theorem engage (h : s.Sound) {d : Manager.Call Network Address GameState} (hd : d.IsQuiet) :
    Sound { s with duet := s.duet.engage d } := by
  have hduet := h.duet.sound
  have hm := hduet.client.sound
  refine ⟨h.duet.engage hd.isStep hd.isOrdinary, h.kinds, h.names,
    (Manager.perform_registry hm s.duet.net hd).trans h.client, hduet.concluded hd.isStep h.concluded, h.heard, h.acked,
    h.world, h.buffer, fun {a p b q st} hl => ?_⟩
  obtain ⟨st₀, hl₀⟩ := hl.of_engage hduet h.duet.talks hd.isStep hd.isOrdinary
  have hpaced := h.paced hl₀
  refine ⟨fun hown hmem hr => ?_, fun hmem hr => hpaced.down (hl₀.far_engage hduet hd.isStep hmem) hr, fun r hr => ?_,
    hpaced.heard, hpaced.acked⟩
  · obtain ⟨hold, hown₀⟩ := hl.near_engage hduet h.duet.talks hd h.names_ne hown hmem
    exact hpaced.up hown₀ hold hr
  · rcases Manager.perform_received hm hduet.client.nodup hduet.net hd hr with
      hold | ⟨b', q', y, hy, -, -, frame, hmem, hread⟩
    · exact hpaced.received r hold
    · -- The client has one connection only.
      obtain ⟨x, hx⟩ := (h.duet.talks hl₀).client_some
      obtain ⟨rfl, rfl⟩ := hduet.client.single hduet.side_client hy hx
      rw [h.client] at hread
      rcases (h.duet.schooled hx (hduet.net.paired hl₀.wire) hl₀.server).2 with hnew | ⟨-, hown⟩
      · rw [hnew, Player.read?_create] at hread
        cases hread
      · exact hpaced.down hmem (Player.reads_of_read? ((congrArg _ hown).trans h.names) hread)

/-! ### What is sent -/

/-- The server sends a client the state that the world has for it. -/
theorem sendState (h : s.Sound) (id : ConnectionId) :
    Sound { s with duet := s.duet.serve (.send id MessageType.state (s.world.stateFor id)) } := by
  have hduet := h.duet.sound
  have hord : MessageType.state.name ≠ StringTable.bootstrapName := by decide
  have hstep : (.send id MessageType.state (s.world.stateFor id) : Manager.Call Network Address UInt32).IsStep :=
    trivial
  refine ⟨h.duet.serve hstep hord, h.kinds, h.names, h.client, h.concluded, h.heard, h.acked, h.world, h.buffer,
    fun {a p b q st} hl => ?_⟩
  obtain ⟨st₀, hl₀⟩ := hl.of_serve hduet h.duet.talks hstep hord
  have hpaced := h.paced hl₀
  refine ⟨fun hown hmem hr => hpaced.up hown (hl₀.near_serve hduet hstep hmem) hr, fun hmem hr => ?_, hpaced.received,
    hpaced.heard, hpaced.acked⟩
  rcases Manager.frame_of_send hduet.server.sound hduet.server.nodup hduet.net hmem with
    hold | ⟨a', c, i, payload, hat, rfl, hw, -, hencode, rfl⟩
  · exact hpaced.down hold hr
  · obtain ⟨rfl, rfl, -⟩ := Network.wire_inj (hduet.net.paired hl₀.wire) (hduet.net.paired hw)
    obtain rfl := MessageType.state_roundTrips.reads hencode hr
    exact h.world.admits fun tick htick => hpaced.acked hat htick

/-- The client acknowledges a tick that it has reached. -/
theorem sendAck (h : s.Sound) (id : ConnectionId) {tick : UInt32} (hreached : s.buffer.Reached tick) :
    Sound { s with duet := s.duet.engage (.send id MessageType.stateAck tick) } := by
  have hduet := h.duet.sound
  have hord : MessageType.stateAck.name ≠ StringTable.bootstrapName := by decide
  have hstep : (.send id MessageType.stateAck tick : Manager.Call Network Address GameState).IsStep := trivial
  refine ⟨h.duet.engage hstep hord, h.kinds, h.names, h.client, h.concluded, h.heard, h.acked, h.world, h.buffer,
    fun {a p b q st} hl => ?_⟩
  obtain ⟨st₀, hl₀⟩ := hl.of_engage hduet h.duet.talks hstep hord
  have hpaced := h.paced hl₀
  refine ⟨fun hown hmem hr => ?_, fun hmem hr => hpaced.down (hl₀.far_engage hduet hstep hmem) hr, hpaced.received,
    hpaced.heard, hpaced.acked⟩
  rcases Manager.frame_of_send hduet.client.sound hduet.client.nodup hduet.net hmem with
    hold | ⟨b', x, i, payload, -, -, -, -, hencode, rfl⟩
  · exact hpaced.up hown hold hr
  · obtain rfl := MessageType.stateAck_roundTrips.reads hencode hr
    exact hreached

/-! ### The world -/

/-- The world takes note of what the server has received. -/
theorem heed (h : s.Sound) : Sound { s with
    duet := s.duet.serve .takeReceived
    world := (s.duet.server.received.map fun r => (r.1.connection, r.2)).foldl (fun w a => w.ack a.1 a.2)
      s.world } := by
  have hacked : ∀ {id tick}, ((s.duet.server.received.map fun r => (r.1.connection, r.2)).foldl
      (fun w a => w.ack a.1 a.2) s.world).acked.get? id = some tick → s.world.acked.get? id = some tick ∨
        ∃ r ∈ s.duet.server.received, r.1.connection = id ∧ r.2 = tick := by
    intro id tick hget
    refine (World.acked_foldl_ack hget).imp_right fun hmem => ?_
    obtain ⟨r, hr, heq⟩ := List.mem_map.mp hmem
    obtain ⟨hid, htick⟩ := Prod.mk.inj heq
    exact ⟨r, hr, hid, htick⟩
  refine ⟨h.duet.serve (c := .takeReceived) trivial trivial, h.kinds, h.names, h.client,
    h.concluded, fun r hr => (by cases hr), ?_, h.world.foldl_ack _, h.buffer, fun {a p b q st} hl => ?_⟩
  · intro id tick hget
    rcases hacked hget with hold | ⟨r, hr, rfl, -⟩
    · exact h.acked hold
    · exact h.heard r hr
  · have hpaced := h.paced ⟨hl.server, hl.client, hl.wire⟩
    refine ⟨hpaced.up, hpaced.down, hpaced.received, fun _ r hr => (by cases hr), fun {c} hat {tick} hget => ?_⟩
    rcases hacked hget with hold | ⟨r, hr, hid, rfl⟩
    · exact hpaced.acked hat hold
    · exact hpaced.heard hat r hr hid

/-- The world becomes another, with no more acknowledged than before. -/
theorem of_world (h : s.Sound) {w : World} (hw : w.Sound)
    (hacked : ∀ {id tick}, w.acked.get? id = some tick → s.world.acked.get? id = some tick) :
    Sound { s with world := w } :=
  ⟨h.duet, h.kinds, h.names, h.client, h.concluded, h.heard, fun hget => h.acked (hacked hget), hw,
    h.buffer, fun hl => ⟨(h.paced hl).up, (h.paced hl).down, (h.paced hl).received, (h.paced hl).heard,
      fun hat _ hget => (h.paced hl).acked hat (hacked hget)⟩⟩

theorem step (h : s.Sound) : Sound { s with world := s.world.step } := h.of_world h.world.step id

theorem noteEvents (h : s.Sound) (events : List NetEvent) :
    Sound { s with world := events.foldl Server.noteEvent s.world } :=
  h.of_world (h.world.foldl_noteEvent events).1 (h.world.foldl_noteEvent events).2

/-! ### The buffer -/

/-- The client gets on. -/
theorem of_buffer (h : s.Sound) {b : StateBuffer} (hb : b.Sound)
    (hreached : ∀ tick, s.buffer.Reached tick → b.Reached tick) : Sound { s with buffer := b } := by
  refine ⟨h.duet, h.kinds, h.names, h.client, h.concluded, h.heard, h.acked, h.world, hb, fun hl => ?_⟩
  have hpaced := h.paced hl
  have hadmits : ∀ {x}, s.buffer.Admits x → b.Admits x := fun hx => hx.imp_right (hreached _)
  exact ⟨fun hown hmem hr => hreached _ (hpaced.up hown hmem hr), fun hmem hr => hadmits (hpaced.down hmem hr),
    fun r hr => hadmits (hpaced.received r hr), fun hat r hr hid => hreached _ (hpaced.heard hat r hr hid),
    fun hat _ hget => hreached _ (hpaced.acked hat hget)⟩

/-- The client takes in what it has received. -/
theorem collect (h : s.Sound) (origin : Nat) : Sound { s with
    duet := s.duet.engage .takeReceived
    buffer := s.duet.client.received.foldl (fun b r => (b.add r.2 origin).1) s.buffer } := by
  have htaken : Sound { s with duet := s.duet.engage .takeReceived } := by
    refine ⟨h.duet.engage (d := .takeReceived) trivial trivial, h.kinds, h.names, h.client,
      h.concluded, h.heard, h.acked, h.world, h.buffer, fun {a p b q st} hl => ?_⟩
    have hpaced := h.paced ⟨hl.server, hl.client, hl.wire⟩
    exact ⟨hpaced.up, hpaced.down, fun r hr => (by cases hr), hpaced.heard, hpaced.acked⟩
  obtain ⟨hsound, hlast⟩ := h.buffer.foldl_add s.duet.client.received origin
  refine htaken.of_buffer hsound fun tick hreached => ?_
  rwa [StateBuffer.Reached, hlast]

/-- The client picks what to apply. -/
theorem select (h : s.Sound) (clock : UInt32) : Sound { s with buffer := (s.buffer.select clock).2.2 } :=
  have hselects := StateBuffer.select_selects s.buffer clock
  h.of_buffer (h.buffer.selects hselects) (h.buffer.reached hselects).1

/-- A client that is told that its connection has come to an end begins anew: it has no connection any more. -/
theorem handleEvents (h : s.Sound) {b : StateBuffer} (hb : b = s.buffer ∨
    (b = s.buffer.reset ∧ ∃ e ∈ s.duet.client.events, e.isEnd = true)) :
    Sound { s with duet := s.duet.engage .takeEvents, buffer := b } := by
  have htaken := h.engage (d := .takeEvents) trivial
  rcases hb with rfl | ⟨rfl, e, he, hend⟩
  · exact htaken
  · refine ⟨htaken.duet, htaken.kinds, htaken.names, htaken.client, htaken.concluded,
      htaken.heard, htaken.acked, htaken.world, StateBuffer.sound_create _, fun {a p b q st} hl => ?_⟩
    obtain ⟨x, hx⟩ := (htaken.duet.talks hl).client_some
    cases (h.concluded e he hend b q).symm.trans hx

/-! ### Others -/

theorem disturb (h : s.Sound) (x : Act) : Sound { s with duet := s.duet.disturb x } := by
  have hduet := h.duet.disturb x
  have hlinks : ∀ {a p b q st}, (s.duet.disturb x).Links a p b q st → s.duet.Links a p b q st ∧
      (s.duet.disturb x).net.notes a p = s.duet.net.notes a p ∧
        (s.duet.disturb x).net.notes b q = s.duet.net.notes b q := fun hl => hl.of_disturb h.duet.sound
  rcases s.duet.disturb_cases x with heq | ⟨heq, -⟩
  · rw [heq]
    exact h
  · rw [heq] at hduet hlinks ⊢
    refine ⟨hduet, h.kinds, h.names, h.client, h.concluded, h.heard, h.acked, h.world, h.buffer,
      fun {a p b q st} hl => ?_⟩
    obtain ⟨hl₀, hnear, hfar⟩ := hlinks hl
    have hpaced := h.paced hl₀
    exact ⟨fun hown hmem hr => hpaced.up hown (hnear ▸ hmem) hr, fun hmem hr => hpaced.down (hfar ▸ hmem) hr,
      hpaced.received, hpaced.heard, hpaced.acked⟩

/-! ### New ones -/

/-- A server that has not started yet takes the place of the one before it. -/
theorem renew (h : s.Sound) (settings : Settings) (entities : Nat) : Sound { s with
    duet := { s.duet with server := Server.enrolled settings }
    world := World.create entities } := by
  have hserver := Server.attends_enrolled settings h.duet.sound.net
  refine ⟨h.duet.of_idle_server hserver (Server.strings_enrolled settings) rfl, rfl, rfl, h.client, h.concluded, ?_, ?_,
    World.sound_create entities, h.buffer, ?_⟩
  · exact fun r hr => by cases hr
  · exact fun hget => by cases hget
  · exact fun hl => by cases hl.server

/-- A client that has not had a connection yet takes the place of the one before it. -/
theorem replace (h : s.Sound) (settings : Settings) : Sound { s with
    duet := { s.duet with client := Player.enrolled settings }
    buffer := StateBuffer.create settings.buffer } := by
  refine ⟨h.duet.of_idle_client (Player.fits_enrolled settings) rfl, h.kinds, h.names, rfl, ?_, h.heard, h.acked,
    h.world, StateBuffer.sound_create _, ?_⟩
  · exact fun e he => by cases he
  · exact fun hl => by cases hl.client

/-- A client that has not had a connection yet dials. Nothing has come in, and nothing comes in but what the server says
    to it from now on. -/
theorem dial (h : s.Sound) (addr : Option Address) (remote : Address) (username : String)
    (hnew : s.duet.client.transports = []) (hreceived : s.duet.client.received = [])
    (hevents : s.duet.client.events = []) : Sound { s with duet := s.duet.dial addr remote username } := by
  have hserver := s.duet.server_dial addr remote username
  obtain ⟨hregistry, hreceived', hevents'⟩ := h.duet.sound.client_dial addr remote username
  refine ⟨h.duet.dial addr remote username, ?_, ?_, hregistry.trans h.client, ?_, ?_, ?_, h.world, h.buffer,
    fun {a p b q st} hl => ?_⟩
  · rw [hserver]
    exact h.kinds
  · rw [hserver]
    exact h.names
  · intro e he
    rw [hevents', hevents] at he
    cases he
  · rw [hserver]
    exact h.heard
  · rw [hserver]
    exact h.acked
  · rcases hl.of_dial h.duet.sound with ⟨hl₀, -⟩ | ⟨-, hnone, -, hfar, hown, -⟩
    · have hmem := hl₀.client
      rw [hnew] at hmem
      cases hmem
    · have hnobody : ∀ {c}, (s.duet.dial addr remote username).server.at? a p ≠ some c := fun hc => by
        rw [hserver, hnone] at hc
        cases hc
      refine ⟨fun hshares => absurd hown hshares, fun hmem => ?_, fun r hr => ?_, fun hc => absurd hc hnobody,
        fun hc => absurd hc hnobody⟩
      · rw [hfar] at hmem
        cases hmem
      · rw [hreceived', hreceived] at hr
        cases hr

end Sound
end Circuit

/-! ### An update -/

namespace Player
variable {n : Network}

/-- The player once an update has taken the events. -/
def informed (p : Player) (n : Network) : Player := handleEvents { p with manager := (p.manager.process n).1 }

theorem update_eq (p : Player) (n : Network) (frame : Nat) : p.update n frame =
    runTicks { p.informed n with timestep := ((p.informed n).timestep.advance frame).2 } (p.manager.process n).2
      ((p.informed n).timestep.advance frame).1 := rfl

/-- The names under which a server and its clients know their messages. -/
def table : StringTable := (Server.enrolled Settings.initial).strings

/-- The next thing that comes to a client, on a channel that is open, is the name table. -/
def AwaitsTable (m : Manager Address GameState) (n : Network) (h : Address) (peer : Peer) (id : ConnectionId) (ch : Channel)
    (more : Nat) : Prop :=
  m.isServer = false ∧ m.transports = [h] ∧ Medium.backlog n h = more + 1 ∧
    (Medium.poll n h).1 =
      some (.data peer (Frame.encode StringTable.bootstrapId (Archive.encodeEntries table.entries))) ∧
    m.connections.find? 0 peer = some id ∧ m.pending.get? id = none ∧ m.channel? id = some ch

instance (m : Manager Address GameState) (n : Network) (h : Address) (peer : Peer) (id : ConnectionId) (ch : Channel)
    (more : Nat) : Decidable (AwaitsTable m n h peer id ch more) :=
  inferInstanceAs (Decidable (_ ∧ _))

/-- It takes the table over, and what else has come is left for after that. -/
theorem process_table {m : Manager Address GameState} {h : Address} {peer : Peer} {id : ConnectionId} {ch : Channel}
    {more : Nat} (awaits : AwaitsTable m n h peer id ch more) :
    m.process n = Manager.drain { m with strings := table.lock } (n.poll h).2 0 h more := by
  obtain ⟨client, transports, backlog, poll, found, decided, channel⟩ := awaits
  have hencode : MessageType.stringTable.encode table.entries = .ok (Archive.encodeEntries table.entries) :=
    MessageType.checkedLength_eq (by decide +kernel) (by decide +kernel)
  -- A table is sorted by its lines, which does not reduce: it is taken over by the lemma.
  have htaken := Manager.receiveFrame_table client (Server.strings_enrolled Settings.initial) hencode ch
  have hfirst : Medium.poll n h = (_, _) := Prod.ext poll rfl
  have hprocess : m.process n = m.drainFrom n 0 [h] := by rw [Manager.process, transports]
  rw [hprocess, Manager.drainFrom, backlog, Manager.drain, hfirst]
  dsimp only
  rw [Manager.handleEvent, Manager.handleData, found]
  dsimp only
  rw [decided]
  dsimp only
  rw [channel]
  dsimp only
  rw [htaken]
  rfl

end Player
end StateSync
