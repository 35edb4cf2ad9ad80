import StateSync.Proofs.Demo.Circuit

/-! A server of the demo and a player on one network, on which anybody else does what they like. In whatever order the
    two take their turns, and whatever becomes of the packets, nothing counts as acknowledged that the player has not
    applied, and no state that comes in leaves a gap behind what it has (`run_paced`). -/

namespace StateSync
open Network (Act)

/-- A server that has not been started. -/
def Server.idle : Server := ⟨enrolled Settings.initial, World.create 0, Timestep.create Settings.initial.tickRate⟩

/-- A player that has not connected. -/
def Player.idle : Player :=
  ⟨enrolled Settings.initial, ⟨0⟩, StateBuffer.create Settings.initial.buffer,
    Timestep.create Settings.initial.tickRate, 0, SortedMap.empty, ⟨0, 0, 0⟩, 0⟩

/-! ### What the two do -/

namespace Circuit

/-- What there is of a server, a player and their network. -/
def of (h : Server) (p : Player) (n : Network) : Circuit := ⟨⟨h.manager, p.manager, n⟩, h.world, p.buffer⟩

namespace Sound
variable {s : Circuit} {h : Server} {p : Player} {n : Network}

theorem serves (hs : s.Sound) (places : List Nat) :
    Sound { s with duet := (places.map Manager.Call.next).foldl Duet.serve s.duet } := by
  induction places generalizing s with
  | nil => exact hs
  | cons i places ih => exact ih (hs.serve (c := .next i) trivial)

theorem engages (hs : s.Sound) (places : List Nat) :
    Sound { s with duet := (places.map Manager.Call.next).foldl Duet.engage s.duet } := by
  induction places generalizing s with
  | nil => exact hs
  | cons i places ih => exact ih (hs.engage (d := .next i) trivial)

/-! ### The server -/

theorem handle (hs : (of h p n).Sound) : (of (h.handle n).2.1 p (h.handle n).2.2).Sound := by
  obtain ⟨places, heq⟩ := Duet.serve_process hs.duet.sound.server.sound
  have hprocessed := hs.serves places
  rw [← heq] at hprocessed
  exact (hprocessed.heed.serve (c := .takeEvents) trivial).noteEvents _

theorem sendStates (hs : (of h p n).Sound) (ids : List ConnectionId) : (of h p (h.sendStates n ids).2).Sound := by
  induction ids generalizing n with
  | nil => exact hs
  | cons id ids ih => exact ih (hs.sendState id)

theorem runTicks (hs : (of h p n).Sound) (count : Nat) :
    (of (h.runTicks n count).2.1 p (h.runTicks n count).2.2).Sound := by
  induction count generalizing h n with
  | zero => exact hs
  | succ count ih => exact ih (sendStates hs.step (h.manager.channels.map (·.connection)))

theorem advance (hs : (of h p n).Sound) (frame : Nat) : (of (h.advance n frame).2.1 p (h.advance n frame).2.2).Sound :=
  runTicks (h := { h with timestep := (h.timestep.advance frame).2 }) hs (h.timestep.advance frame).1

/-! ### The player -/

theorem carryOut (hs : (of h p n).Sound) {picked : Selection}
    (hreached : ∀ x, picked.current = some x → x.extrapolated = false → p.buffer.Reached x.toTick) :
    (of h (p.carryOut n picked).1 (p.carryOut n picked).2).Sound := by
  unfold Player.carryOut
  split
  · exact hs
  · rename_i x hx
    split
    · exact hs
    · rename_i hreal
      exact hs.sendAck p.connection (hreached x hx (eq_false_of_ne_true hreal))

theorem runTick (hs : (of h p n).Sound) : (of h (p.runTick n).1 (p.runTick n).2).Sound := by
  have hcollected : (of h (p.collect ((n.clock - p.started) / Network.millisecond)) n).Sound := hs.collect _
  unfold Player.runTick
  generalize p.collect ((n.clock - p.started) / Network.millisecond) = p at hcollected ⊢
  have hreached := hcollected.buffer.reached (StateBuffer.select_selects p.buffer p.tick)
  exact carryOut (p := { p with buffer := (p.buffer.select p.tick).2.2, tick := (p.buffer.select p.tick).2.1 })
    (hcollected.select p.tick) hreached.2

theorem playTicks (hs : (of h p n).Sound) (count : Nat) :
    (of h (p.runTicks n count).1 (p.runTicks n count).2).Sound := by
  induction count generalizing p n with
  | zero => exact hs
  | succ count ih => exact ih hs.runTick

theorem handleNews (hs : (of h p n).Sound) : (of h p.handleEvents n).Sound := by
  obtain ⟨hmanager, hbuffer⟩ := Player.foldl_handleEvent p.manager.events { p with manager := p.manager.takeEvents.2 }
  have hnews := hs.handleEvents hbuffer
  show Sound ⟨⟨h.manager, (p.handleEvents).manager, n⟩, h.world, (p.handleEvents).buffer⟩
  rw [show p.handleEvents.manager = _ from hmanager]
  exact hnews

theorem update (hs : (of h p n).Sound) (frame : Nat) : (of h (p.update n frame).1 (p.update n frame).2).Sound := by
  obtain ⟨places, heq⟩ := Duet.engage_process hs.duet.sound.client.sound
  have hprocessed := hs.engages places
  rw [← heq] at hprocessed
  have hnews := handleNews (h := h) (p := { p with manager := (p.manager.process n).1 }) (n := (p.manager.process n).2)
    hprocessed
  -- How long the frame was is of no account to what is sent.
  have hticks : ∀ {p : Player} {n : Network}, (of h p n).Sound →
      let r := Player.runTicks { p with timestep := (p.timestep.advance frame).2 } n (p.timestep.advance frame).1
      (of h r.1 r.2).Sound :=
    fun {p _} hs => playTicks (p := { p with timestep := (p.timestep.advance frame).2 }) hs (p.timestep.advance frame).1
  exact hticks hnews

/-! ### Beginnings -/

theorem start (hs : (of h p n).Sound) (settings : Settings) (entities : Nat) :
    match Server.start n settings entities with
    | (.ok h', n') => (of h' p n').Sound
    | (.error _, n') => (of Server.idle p n').Sound := by
  have hstarted : (of ⟨((Server.enrolled settings).start n).2.1, World.create entities,
      Timestep.create settings.tickRate⟩ p ((Server.enrolled settings).start n).2.2).Sound :=
    (hs.renew settings entities).serve (c := .start) trivial
  rw [Server.start, Server.register_eq]
  dsimp only
  rcases hstart : (Server.enrolled settings).start n with ⟨e | ⟨⟩, m, n'⟩
  · rw [hstart] at hstarted
    exact hstarted.renew Settings.initial 0
  · rw [hstart] at hstarted
    exact hstarted

theorem connect (hs : (of h p n).Sound) (remote : Address) (username : String) (settings : Settings) :
    match Player.connect n remote username settings with
    | (.ok p', n') => (of h p' n').Sound
    | (.error _, n') => (of h Player.idle n').Sound := by
  have hdialed := (hs.replace settings).dial none remote username rfl rfl rfl
  rw [Player.connect, Player.register_eq]
  dsimp only
  rcases hbind : n.bindAny with _ | ⟨addr, n₁⟩
  · exact hs.replace Settings.initial
  · dsimp only
    have hbind' : n.bindAt none = some (addr, n₁) := hbind
    simp only [Duet.dial, of, hbind'] at hdialed
    rcases hconnect : (Player.enrolled settings).connect n₁ addr remote username with ⟨e | id, m, n₂⟩
    · rw [hconnect] at hdialed
      exact hdialed.replace Settings.initial
    · rw [hconnect] at hdialed
      exact hdialed

end Sound
end Circuit

/-! ### Scenes -/

/-- A server, once there is one, a player, once there is one, and the network that they share with others. -/
structure Scene where
  server : Option Server
  player : Option Player
  net : Network

namespace Scene

def create (luck : Nat → Luck) : Scene := ⟨none, none, .create luck⟩

def transports (s : Scene) : List Address :=
  (s.server.map (·.manager.transports)).getD [] ++ (s.player.map (·.manager.transports)).getD []

inductive Move : Type 1 where
  /-- Starts a server where none is running. -/
  | start (settings : Settings) (entities : Nat)
  /-- A player connects where none is running. -/
  | join (remote : Address) (username : String) (settings : Settings)
  /-- The server handles what has come, and takes note of what was acknowledged. -/
  | handle
  /-- The world gets on by a tick. -/
  | step
  /-- The server sends the state of the world on some of its channels. -/
  | send (ids : List ConnectionId)
  /-- The ticks of a frame: steps of the world, each of them sent to all. -/
  | advance (frame : Nat)
  /-- The player handles what has come, and has the ticks of a frame. -/
  | update (frame : Nat)
  /-- The application does something else with the server's manager. -/
  | serve (c : Manager.Call Network Address UInt32) (quiet : c.IsQuiet)
  | engage (c : Manager.Call Network Address GameState) (quiet : c.IsQuiet)
  /-- Somebody else does something on the network, or time passes. -/
  | disturb (x : Act)

def withServer (s : Scene) (f : Server → Network → Server × Network) : Scene :=
  match s.server with
  | none => s
  | some h => { s with server := some (f h s.net).1, net := (f h s.net).2 }

def withPlayer (s : Scene) (f : Player → Network → Player × Network) : Scene :=
  match s.player with
  | none => s
  | some p => { s with player := some (f p s.net).1, net := (f p s.net).2 }

def perform (s : Scene) : Move → Scene
  | .start settings entities =>
    if s.server.any (·.manager.isRunning) then s
    else
      match Server.start s.net settings entities with
      | (.ok h, n) => { s with server := some h, net := n }
      | (.error _, n) => { s with server := none, net := n }
  | .join remote username settings =>
    if s.player.any (·.manager.isRunning) then s
    else
      match Player.connect s.net remote username settings with
      | (.ok p, n) => { s with player := some p, net := n }
      | (.error _, n) => { s with player := none, net := n }
  | .handle => s.withServer fun h n => (h.handle n).2
  | .step => s.withServer fun h n => ({ h with world := h.world.step }, n)
  | .send ids => s.withServer fun h n => (h, (h.sendStates n ids).2)
  | .advance frame => s.withServer fun h n => (h.advance n frame).2
  | .update frame => s.withPlayer fun p n => p.update n frame
  | .serve c _ => s.withServer fun h n =>
    let (m, n) := Manager.perform (h.manager, n) c
    ({ h with manager := m }, n)
  | .engage c _ => s.withPlayer fun p n =>
    let (m, n) := Manager.perform (p.manager, n) c
    ({ p with manager := m }, n)
  | .disturb x => if x.site.any (· ∈ s.transports) then s else { s with net := s.net.act x }

def run (s : Scene) (moves : List Move) : Scene := moves.foldl perform s

/-! ### The invariant -/

def circuit (s : Scene) : Circuit := .of (s.server.getD Server.idle) (s.player.getD Player.idle) s.net

section
variable {s : Scene}

theorem circuit_withServer {f : Server → Network → Server × Network} (h : s.circuit.Sound)
    (hf : ∀ {h p n}, (Circuit.of h p n).Sound → (Circuit.of (f h n).1 p (f h n).2).Sound) :
    (s.withServer f).circuit.Sound := by
  obtain ⟨server, player, net⟩ := s
  cases server with
  | none => exact h
  | some server => exact hf (p := player.getD Player.idle) h

theorem circuit_withPlayer {f : Player → Network → Player × Network} (h : s.circuit.Sound)
    (hf : ∀ {h p n}, (Circuit.of h p n).Sound → (Circuit.of h (f p n).1 (f p n).2).Sound) :
    (s.withPlayer f).circuit.Sound := by
  obtain ⟨server, player, net⟩ := s
  cases player with
  | none => exact h
  | some player => exact hf (h := server.getD Server.idle) h

theorem circuit_perform (h : s.circuit.Sound) (move : Move) : (s.perform move).circuit.Sound := by
  cases move with
  | start settings entities =>
    rw [perform]
    split
    · exact h
    · have hstart := Circuit.Sound.start h settings entities
      split
      · rename_i heq
        rwa [heq] at hstart
      · rename_i heq
        rwa [heq] at hstart
  | join remote username settings =>
    rw [perform]
    split
    · exact h
    · have hconnect := Circuit.Sound.connect h remote username settings
      split
      · rename_i heq
        rwa [heq] at hconnect
      · rename_i heq
        rwa [heq] at hconnect
  | handle => exact circuit_withServer h fun hs => hs.handle
  | step => exact circuit_withServer h fun hs => hs.step
  | send ids => exact circuit_withServer h fun hs => hs.sendStates ids
  | advance frame => exact circuit_withServer h fun hs => hs.advance frame
  | update frame => exact circuit_withPlayer h fun hs => hs.update frame
  | serve c quiet => exact circuit_withServer h fun hs => hs.serve quiet
  | engage c quiet => exact circuit_withPlayer h fun hs => hs.engage quiet
  | disturb x =>
    have htransports : s.transports = s.circuit.duet.server.transports ++ s.circuit.duet.client.transports := by
      obtain ⟨_ | server, _ | player, net⟩ := s <;> rfl
    have hdisturbed := h.disturb x
    rw [Duet.disturb, ← htransports] at hdisturbed
    rw [perform]
    split
    · exact h
    · rename_i helse
      rwa [if_neg helse] at hdisturbed

end

theorem circuit_create (luck : Nat → Luck) : (create luck).circuit.Sound := by
  have hduet : (create luck).circuit.duet.Orderly :=
    ((Duet.Orderly.create Settings.initial Settings.initial luck).of_idle_server
      (Server.attends_enrolled _ (Network.sound_create luck)) (Server.strings_enrolled _) rfl).of_idle_client
        (Player.fits_enrolled _) rfl
  refine ⟨hduet, rfl, rfl, rfl, ?_, ?_, ?_, World.sound_create 0, StateBuffer.sound_create _, ?_⟩
  · exact fun e he => by cases he
  · exact fun r hr => by cases hr
  · exact fun hget => by cases hget
  · exact fun hl => by cases hl.server

theorem circuit_run (luck : Nat → Luck) (moves : List Move) : ((create luck).run moves).circuit.Sound := by
  suffices hrun : ∀ {s : Scene}, s.circuit.Sound → (s.run moves).circuit.Sound from hrun (circuit_create luck)
  induction moves with
  | nil => exact id
  | cons move moves ih => exact fun h => ih (circuit_perform h move)

/-! ### Nothing runs ahead -/

/-- The connection is up: the server has it, and a link leads from it to this end of the player's. -/
structure Up (s : Scene) (h : Server) (c : Connection) (p : Player) (b : Address) (q : Peer) : Prop where
  server : s.server = some h
  player : s.player = some p
  link : ∃ a r st, h.manager.at? a r = some c ∧ s.net.wire? a r = some ⟨b, q, st⟩
  own : b ∈ p.manager.transports

/-- A state that the server has sent is on its way to this end of the player's, or has come in and waits for the player
    to look at it. -/
def Brings (s : Scene) (h : Server) (p : Player) (b : Address) (q : Peer) (x : GameState) : Prop :=
  (∃ frame, h.manager.build MessageType.state x = .ok frame ∧ .frame frame ∈ s.net.notes b q) ∨
    ∃ r ∈ p.manager.received, r.2 = x

theorem Brings.admits {s : Scene} {h : Server} {p : Player} {a b : Address} {q r : Peer} {x : GameState}
    (hx : s.Brings h p b q x) (hs : (Circuit.of h p s.net).Sound) (hpaced : (Circuit.of h p s.net).Paced a r b q) :
    p.buffer.Admits x := by
  rcases hx with ⟨frame, hbuild, hmem⟩ | ⟨r, hr, rfl⟩
  · obtain ⟨-, i, payload, hfind, hencode, rfl⟩ := Manager.build_ok_iff.mp hbuild
    refine hpaced.down hmem ⟨payload, ?_, MessageType.state_roundTrips x payload hencode⟩
    have hi := hs.duet.sound.table.get?_of_find? hfind
    rcases Server.names_eq_of_get? hs.names hi with ⟨-, hname⟩ | ⟨rfl, -⟩ | ⟨-, hname⟩
    · exact absurd hname (by decide)
    · rfl
    · exact absurd hname (by decide)
  · exact hpaced.received r hr

/-- While a player's connection is up, no tick counts as acknowledged on it that the player has not reached, and none at
    all before the first state was applied. So what the server has for a player that waits for its first state is full,
    and each state that comes in, if it leads past the last tick applied, is full or leaves no gap behind it. -/
theorem run_paced (luck : Nat → Luck) (moves : List Move) (h : Server) (c : Connection) (p : Player) (b : Address)
    (q : Peer) (hup : ((create luck).run moves).Up h c p b q) :
    (∀ tick, h.world.acked.get? c.id = some tick → ∃ last, p.buffer.lastTick = some last ∧ tick ≤ last) ∧
    (p.buffer.isWaiting = true → h.world.acked.get? c.id = none ∧ (h.world.stateFor c.id).isFull = true) ∧
    ∀ x, ((create luck).run moves).Brings h p b q x → (p.buffer.isWaiting = true → x.isFull = true) ∧
      ∀ last, p.buffer.lastTick = some last → last < x.toTick → x.isFull = true ∨ x.chainsFrom last = true := by
  obtain ⟨hserver, hplayer, ⟨a, r, st, hat, hw⟩, hown⟩ := hup
  have hs := circuit_run luck moves
  generalize (create luck).run moves = s at *
  rw [circuit, hserver, hplayer] at hs
  have hpaced : (Circuit.of h p s.net).Paced a r b q := hs.paced ⟨Manager.mem_transports_of_at? hat, hown, hw⟩
  have hacked : ∀ tick, h.world.acked.get? c.id = some tick → p.buffer.Reached tick := fun _ => hpaced.acked hat
  refine ⟨hacked, fun hwaiting => ⟨?_, (hs.world.admits hacked).isFull hwaiting⟩, fun x hx => ?_⟩
  · exact Option.eq_none_iff_forall_ne_some.mpr fun tick htick => StateBuffer.not_reached hwaiting (hacked tick htick)
  · have hadmits := hx.admits hs hpaced
    exact ⟨hadmits.isFull, fun last hlast hlt => hadmits.chains hlast hlt⟩

/-! ### Two scenes -/

theorem run_cons (s : Scene) (move : Move) (moves : List Move) : s.run (move :: moves) = (s.perform move).run moves :=
  rfl

theorem run_append (s : Scene) (moves later : List Move) : s.run (moves ++ later) = (s.run moves).run later :=
  List.foldl_append

theorem perform_update {s : Scene} {p : Player} (h : s.player = some p) (frame : Nat) :
    s.perform (.update frame) = ⟨s.server, some (p.update s.net frame).1, (p.update s.net frame).2⟩ := by
  rw [perform, withPlayer, h]

def host (s : Scene) : Server := s.server.getD Server.idle

def guest (s : Scene) : Player := s.player.getD Player.idle

theorem server_eq {s : Scene} (h : s.server.isSome = true) : s.server = some s.host := by
  obtain ⟨server, hserver⟩ := Option.isSome_iff_exists.mp h
  rw [host, hserver, Option.getD_some]

theorem player_eq {s : Scene} (h : s.player.isSome = true) : s.player = some s.guest := by
  obtain ⟨player, hplayer⟩ := Option.isSome_iff_exists.mp h
  rw [guest, hplayer, Option.getD_some]

/-- Where the server listens. -/
def desk : Address := ⟨.v4 0 0 0 0, Settings.defaultPort⟩

/-- Where the player's end of the link is. -/
def seat : Address := ⟨.v4 127 0 0 1, 50000⟩

/-- The server has a connection to the player, and a state is on its way there. -/
def Conveys (s : Scene) (id : ConnectionId) (x : GameState) : Prop :=
  s.server.isSome = true ∧ s.player.isSome = true ∧ (s.host.manager.at? desk ⟨2⟩).map (·.id) = some id ∧
    s.net.wire? desk ⟨2⟩ = some ⟨seat, ⟨1⟩, .connected⟩ ∧ seat ∈ s.guest.manager.transports ∧
    s.host.manager.registry.isRegistered MessageType.state.name = true ∧
    s.host.manager.strings.find? MessageType.state.name = some Server.stateId ∧
    (Archive.encodeState x).length < 0x80000000 ∧
    .frame (Frame.encode Server.stateId (Archive.encodeState x)) ∈ s.net.notes seat ⟨1⟩

instance (s : Scene) (id : ConnectionId) (x : GameState) : Decidable (s.Conveys id x) :=
  inferInstanceAs (Decidable (_ ∧ _))

theorem Conveys.exists_up {s : Scene} {id : ConnectionId} {x : GameState} (h : s.Conveys id x) :
    ∃ c, c.id = id ∧ s.Up s.host c s.guest seat ⟨1⟩ ∧ s.Brings s.host s.guest seat ⟨1⟩ x := by
  obtain ⟨hserver, hplayer, hseat, hwire, hown, hregistered, hfind, hlen, hmem⟩ := h
  obtain ⟨c, hc, hid⟩ := Option.map_eq_some_iff.mp hseat
  exact ⟨c, hid, ⟨server_eq hserver, player_eq hplayer, ⟨_, _, _, hc, hwire⟩, hown⟩,
    Or.inl ⟨_, Manager.build_ok_iff.mpr ⟨hregistered, _, _, hfind, MessageType.checkedLength_eq hlen nofun, rfl⟩, hmem⟩⟩

/-- A player comes to a server, both take their events, and the server sends its first state. -/
def opening : List Move :=
  [.start Settings.initial 0, .join desk "ann" Settings.initial, .handle, .update 0, .handle, .update 0, .handle, .step,
    .send [⟨0⟩]]

def opened : Scene := (create fun _ => default).run opening

/-- Two more states come, with which the player can begin. -/
def supply : List Move := opening ++ [.step, .send [⟨0⟩], .step, .send [⟨0⟩]]

def supplied : Scene := (create fun _ => default).run supply

/-- The player applies one of them and says so, and the server sends the next. -/
def reply : List Move := supply ++ [.update 16666667, .handle, .step, .send [⟨0⟩]]

def replied : Scene := (create fun _ => default).run reply

/-- The name table comes first, and the states after it. -/
theorem process_supplied : supplied.guest.manager.process supplied.net =
    Manager.drain { supplied.guest.manager with strings := Player.table.lock } (supplied.net.poll seat).2 0 seat 4 :=
  Player.process_table (show Player.AwaitsTable _ _ _ ⟨1⟩ ⟨0⟩ ⟨⟨0⟩, "ann", desk⟩ 4 by decide +kernel)

theorem replied_eq : replied = (supplied.perform (.update 16666667)).run [.handle, .step, .send [⟨0⟩]] := by
  rw [replied, reply, run_append, run_cons, supplied]

theorem conveys_replied : replied.Conveys ⟨0⟩ (GameState.blank 1 4) ∧
    replied.host.world.acked.get? ⟨0⟩ = some 1 ∧ replied.guest.buffer.lastTick = some 1 := by
  have hplayer : supplied.player = some supplied.guest := player_eq (by decide +kernel)
  rw [replied_eq, perform_update hplayer, Player.update_eq, Player.informed, process_supplied]
  decide +kernel

/-- The first state is on its way to a player who waits for it. Later a delta is on its way to one who has applied its
    base, and has said so. -/
theorem run_paced_opening :
    (∃ c, opened.Up opened.host c opened.guest seat ⟨1⟩ ∧
      opened.Brings opened.host opened.guest seat ⟨1⟩ (World.snapshot 1 []) ∧ opened.guest.buffer.isWaiting = true ∧
      opened.host.world.acked.get? c.id = none ∧ (World.snapshot 1 []).isFull = true) ∧
    ∃ c, replied.Up replied.host c replied.guest seat ⟨1⟩ ∧
      replied.Brings replied.host replied.guest seat ⟨1⟩ (GameState.blank 1 4) ∧
      replied.host.world.acked.get? c.id = some 1 ∧ replied.guest.buffer.lastTick = some 1 ∧
      (GameState.blank 1 4).isFull = false ∧ (GameState.blank 1 4).chainsFrom 1 = true := by
  constructor
  · have hconveys : opened.Conveys ⟨0⟩ (World.snapshot 1 []) := by decide +kernel
    have hwaiting : opened.guest.buffer.isWaiting = true := by decide +kernel
    obtain ⟨c, -, hup, hbrings⟩ := hconveys.exists_up
    obtain ⟨-, hnone, hfull⟩ := run_paced (fun _ => default) opening _ c _ _ _ hup
    exact ⟨c, hup, hbrings, hwaiting, (hnone hwaiting).1, (hfull _ hbrings).1 hwaiting⟩
  · obtain ⟨hconveys, hacked, hlast⟩ := conveys_replied
    obtain ⟨c, hid, hup, hbrings⟩ := hconveys.exists_up
    obtain ⟨-, -, hchains⟩ := run_paced (fun _ => default) reply _ c _ _ _ hup
    rw [← hid] at hacked
    exact ⟨c, hup, hbrings, hacked, hlast, rfl, ((hchains _ hbrings).2 1 hlast (by decide)).resolve_left (by decide)⟩

end Scene
end StateSync
