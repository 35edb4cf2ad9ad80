import StateSync.Demo.World
import StateSync.Manager.Open
import StateSync.Manager.Process
import StateSync.Manager.Send
import StateSync.Timestep
import StateSync.Transport.Network

/-! The server of the world: it takes the acknowledgements that come in, and for each tick of the world
    sends every client the state it needs. -/

namespace StateSync

structure Server where
  manager : Manager Address UInt32
  world : World
  timestep : Timestep

/-- A state that was sent, and how the sending went. -/
structure Sent where
  connection : ConnectionId
  state : GameState
  result : Except NetError Unit

/-- What a round of handling brought: the acknowledgements and the events, in order. -/
structure Handled where
  acks : List (ConnectionId × UInt32)
  events : List NetEvent
  deriving DecidableEq, Repr, Inhabited

namespace Server

/-- The manager of a server: it sends states and receives acknowledgements. -/
def register (s : Settings) : Except NetError (Manager Address UInt32) :=
  match (Manager.create .server s).register MessageType.state none with
  | .error e => .error e
  | .ok m => m.register MessageType.stateAck (some id)

/-- Makes a server of a world with `entities` movers and starts it. -/
def start (n : Network) (s : Settings) (entities : Nat) : Except NetError Server × Network :=
  match register s with
  | .error e => (.error e, n)
  | .ok m =>
    match m.start n with
    | (.error e, _, n) => (.error e, n)
    | (.ok _, m, n) => (.ok ⟨m, World.create entities, Timestep.create s.tickRate⟩, n)

/-- The address that clients connect to, the first it listens on. -/
def address? (h : Server) : Option Address := h.manager.transports.head?

/-! ### Handling what has come -/

/-- A client that is gone has acknowledged nothing. -/
def noteEvent (w : World) : NetEvent → World
  | .disconnected id .. => w.forget id
  | _ => w

def handle (h : Server) (n : Network) : Handled × Server × Network :=
  let (m, n) := h.manager.process n
  let (received, m) := m.takeReceived
  let (events, m) := m.takeEvents
  let acks := received.map fun r => (r.1.connection, r.2)
  let world := acks.foldl (fun w a => w.ack a.1 a.2) h.world
  (⟨acks, events⟩, { h with manager := m, world := events.foldl noteEvent world }, n)

/-! ### Ticks -/

/-- Sends the state of the world on channels in order. -/
def sendStates (h : Server) (n : Network) : List ConnectionId → List Sent × Network
  | [] => ([], n)
  | id :: ids =>
    let state := h.world.stateFor id
    let (result, n) := h.manager.send n id MessageType.state state
    let (sent, n) := h.sendStates n ids
    (⟨id, state, result⟩ :: sent, n)

/-- One tick of the world, sent to all. -/
def runTick (h : Server) (n : Network) : List Sent × Server × Network :=
  let h := { h with world := h.world.step }
  let (sent, n) := h.sendStates n (h.manager.channels.map (·.connection))
  (sent, h, n)

def runTicks (h : Server) (n : Network) : Nat → List Sent × Server × Network
  | 0 => ([], h, n)
  | count + 1 =>
    let (sent, h, n) := h.runTick n
    let (more, h, n) := h.runTicks n count
    (sent ++ more, h, n)

/-- The ticks that a frame of the given length brings. -/
def advance (h : Server) (n : Network) (frame : Nat) : List Sent × Server × Network :=
  let (ticks, timestep) := h.timestep.advance frame
  runTicks { h with timestep := timestep } n ticks

end Server
end StateSync
