import StateSync.Manager.Open
import StateSync.Manager.Process
import StateSync.Manager.Send
import StateSync.State.Buffer
import StateSync.State.View
import StateSync.Timestep
import StateSync.Transport.Network

/-! A client of the world: it takes the states that come in, picks one for each of its ticks, folds it into
    its view, and acknowledges it. -/

namespace StateSync

/-- Counts of ticks by what they brought. -/
structure PlayerStats where
  applied : Nat
  extrapolated : Nat
  stalled : Nat
  deriving DecidableEq, Repr, Inhabited

structure Player where
  manager : Manager Address GameState
  connection : ConnectionId
  buffer : StateBuffer
  timestep : Timestep
  tick : UInt32
  view : EntityView
  stats : PlayerStats
  /-- The time at which it was made. -/
  started : Nat

namespace Player

/-- The manager of a client: it receives states and sends acknowledgements. -/
def register (s : Settings) : Except NetError (Manager Address GameState) :=
  match (Manager.create .client s).register MessageType.state (some id) with
  | .error e => .error e
  | .ok m => m.register MessageType.stateAck none

/-- Makes a client and opens its connection, from any free port. -/
def connect (n : Network) (remote : Address) (username : String) (s : Settings) :
    Except NetError Player × Network :=
  match register s with
  | .error e => (.error e, n)
  | .ok m =>
    match n.bindAny with
    | none => (.error (.transport (.refused "bind")), n)
    | some (addr, n) =>
      match m.connect n addr remote username with
      | (.error e, _, n) => (.error e, n)
      | (.ok id, m, n) =>
        (.ok ⟨m, id, StateBuffer.create s.buffer, Timestep.create s.tickRate, 0, SortedMap.empty, ⟨0, 0, 0⟩, n.clock⟩, n)

def sessionName? (p : Player) : Option String := (p.manager.channel? p.connection).map (·.sessionName)

/-! ### Events -/

/-- A connection that is lost takes the view and the waiting states with it. -/
def handleEvent (p : Player) : NetEvent → Player
  | .connected .. => p
  | .disconnected .. => { p with buffer := p.buffer.reset, view := SortedMap.empty }
  | .connectFailed .. => { p with buffer := p.buffer.reset, view := SortedMap.empty }

def handleEvents (p : Player) : Player :=
  let (events, m) := p.manager.takeEvents
  events.foldl handleEvent { p with manager := m }

/-! ### Ticks -/

/-- Moves the received states into the buffer. -/
def collect (p : Player) (origin : Nat) : Player :=
  let (received, m) := p.manager.takeReceived
  { p with manager := m, buffer := received.foldl (fun b r => (b.add r.2 origin).1) p.buffer }

def applyAll (v : EntityView) (ss : List GameState) : EntityView := ss.foldl (fun v s => s.applyTo v) v

/-- Carries out what the buffer picked. -/
def carryOut (p : Player) (n : Network) (s : Selection) : Player × Network :=
  match s.current with
  | none => ({ p with stats := { p.stats with stalled := p.stats.stalled + 1 } }, n)
  | some current =>
    if current.extrapolated then
      ({ p with stats := { p.stats with extrapolated := p.stats.extrapolated + 1 } }, n)
    else
      let p := { p with
        view := current.applyTo (applyAll p.view s.catchUp)
        stats := { p.stats with applied := p.stats.applied + 1 } }
      (p, (p.manager.send n p.connection MessageType.stateAck current.toTick).2)

/-- One tick: take in what has come, pick, and carry out. -/
def runTick (p : Player) (n : Network) : Player × Network :=
  let p := p.collect ((n.clock - p.started) / Network.millisecond)
  let (selection, tick, buffer) := p.buffer.select p.tick
  let (p, n) := carryOut { p with buffer := buffer, tick := tick } n selection
  ({ p with tick := p.tick + 1 }, n)

def runTicks (p : Player) (n : Network) : Nat → Player × Network
  | 0 => (p, n)
  | count + 1 =>
    let (p, n) := p.runTick n
    p.runTicks n count

def update (p : Player) (n : Network) (frame : Nat) : Player × Network :=
  let (m, n) := p.manager.process n
  let p := handleEvents { p with manager := m }
  let (ticks, timestep) := p.timestep.advance frame
  runTicks { p with timestep := timestep } n ticks

def shutdown (p : Player) (n : Network) : Player × Network :=
  let (m, n) := p.manager.shutdown n "Client quit"
  ({ p with manager := m }, n)

end Player
end StateSync
