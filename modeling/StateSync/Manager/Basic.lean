import StateSync.Connection.Name
import StateSync.Connection.Table
import StateSync.Message.Kinds
import StateSync.Message.Registry
import StateSync.Settings
import StateSync.Transport.Basic

/-! The manager of one side's connections: its state, what can be asked of it, and the single updates that
    all its work is made of. The media of its transports are not part of it; what it does to them is said
    in the modules on opening, handshake and processing. -/

namespace StateSync

inductive Side where
  | server
  | client
  deriving DecidableEq, Repr, Inhabited

/-- What the application is told of its connections. -/
inductive NetEvent where
  /-- The handshake is over. On a server the name table is already on its way. -/
  | connected (id : ConnectionId) (sessionName : String) (remote : Address)
  | disconnected (id : ConnectionId) (sessionName : String) (reason : String)
  /-- A client's connection ended before the handshake was over. -/
  | connectFailed (remote : Address) (reason : String)
  deriving DecidableEq, Repr, Inhabited

/-- What a server's hook is asked before a session is made. -/
structure ConnectRequest where
  connection : ConnectionId
  remote : Address
  requestedName : String
  sessionName : String
  deriving DecidableEq, Repr, Inhabited

inductive Verdict where
  | allow
  | deny
  deriving DecidableEq, Repr, Inhabited

/-- A say in who may connect. The verdict may depend on all that was asked before. -/
structure ConnectHook where
  decide : List ConnectRequest → ConnectRequest → Verdict
  /-- What it has been asked, in order. -/
  asked : List ConnectRequest

namespace ConnectHook

def create (decide : List ConnectRequest → ConnectRequest → Verdict) : ConnectHook := ⟨decide, []⟩

/-- Denies the first `n` requests, and then those for the given names. -/
def denying (n : Nat) (names : List String) : ConnectHook :=
  create fun asked r => if asked.length < n ∨ r.requestedName ∈ names then .deny else .allow

def ask (h : ConnectHook) (r : ConnectRequest) : Verdict × ConnectHook :=
  (h.decide h.asked r, { h with asked := h.asked ++ [r] })

end ConnectHook

/-- A manager of transports with handles in `ι`, for an application that receives values of `δ`. -/
structure Manager (ι δ : Type) where
  side : Side
  settings : Settings
  transports : List ι
  connections : ConnectionTable
  pending : PendingFrames
  strings : StringTable
  registry : Registry δ
  /-- The events that the application has not taken yet. -/
  events : List NetEvent
  hook : Option ConnectHook
  username : String
  /-- The messages that the application has not taken yet, with the channels they came on. -/
  received : List (Channel × δ)

namespace Manager
variable {ι δ : Type}

def create (side : Side) (settings : Settings) : Manager ι δ where
  side := side
  settings := settings
  transports := []
  connections := ConnectionTable.empty
  pending := Assoc.empty
  strings := StringTable.create
  registry := Registry.create
  events := []
  hook := none
  username := ""
  received := []

instance : Inhabited (Manager ι δ) := ⟨create default default⟩

/-! ### Questions -/

def isServer (m : Manager ι δ) : Bool := m.side = .server

def isRunning (m : Manager ι δ) : Bool := !m.transports.isEmpty

def channel? (m : Manager ι δ) (id : ConnectionId) : Option Channel := (m.connections.get? id).bind (·.channel)

def channel (m : Manager ι δ) (id : ConnectionId) : Except NetError Channel :=
  match m.channel? id with
  | some c => .ok c
  | none => .error (.noChannel id)

def channels (m : Manager ι δ) : List Channel := m.connections.channels

def channelByName? (m : Manager ι δ) (name : String) : Option Channel := m.channels.find? (·.sessionName = name)

def phase? (m : Manager ι δ) (id : ConnectionId) : Option Phase := (m.connections.get? id).map (·.phase)

def pendingHandshakes (m : Manager ι δ) : Nat := m.pending.size

def transportOf? (m : Manager ι δ) (c : Connection) : Option ι := m.transports[c.transport]?

def localAddresses {μ : Type} [Medium μ ι] (m : Manager ι δ) (w : μ) : List Address :=
  m.transports.map (Medium.localAddress w)

/-! ### Single updates -/

def pushEvent (m : Manager ι δ) (e : NetEvent) : Manager ι δ := { m with events := m.events ++ [e] }

def takeEvents (m : Manager ι δ) : List NetEvent × Manager ι δ := (m.events, { m with events := [] })

def takeReceived (m : Manager ι δ) : List (Channel × δ) × Manager ι δ := (m.received, { m with received := [] })

def setHook (m : Manager ι δ) (h : ConnectHook) : Manager ι δ := { m with hook := some h }

def modifyConnection (m : Manager ι δ) (id : ConnectionId) (f : Connection → Connection) : Manager ι δ :=
  { m with connections := m.connections.modify id f }

def setPhase (m : Manager ι δ) (id : ConnectionId) (p : Phase) : Manager ι δ :=
  m.modifyConnection id fun c => { c with phase := p }

def expect (m : Manager ι δ) (id : ConnectionId) (f : PendingFrame) : Manager ι δ :=
  { m with pending := m.pending.insert id f }

def clearPending (m : Manager ι δ) (id : ConnectionId) : Manager ι δ := { m with pending := m.pending.erase id }

/-! ### Registration -/

/-- On a server the kinds of messages enter the name table; a client takes its table from the server. -/
def intern (m : Manager ι δ) (name : String) : Except NetError (Manager ι δ) :=
  if m.isServer then
    match m.strings.add name with
    | .ok (_, strings) => .ok { m with strings := strings }
    | .error e => .error e
  else .ok m

/-- Makes a kind of message known, once; with `receive` the application gets its messages. -/
def register {α : Type} (m : Manager ι δ) (t : MessageType α) (receive : Option (α → δ)) :
    Except NetError (Manager ι δ) :=
  if m.registry.isRegistered t.name then .error (.duplicateMessage t.name)
  else
    match m.intern t.name with
    | .error e => .error e
    | .ok m =>
      match m.registry.register t receive with
      | .error e => .error e
      | .ok registry => .ok { m with registry := registry }

/-! ### Messages to be sent -/

def messageId (m : Manager ι δ) (name : String) : Except NetError UInt8 :=
  if !m.registry.isRegistered name then .error (.unregisteredMessage name)
  else
    match m.strings.find? name with
    | some id => .ok id
    | none => if !m.isServer && !m.strings.locked then .error .noStringTable else .error (.unregisteredMessage name)

def build {α : Type} (m : Manager ι δ) (t : MessageType α) (x : α) : Except NetError Bytes :=
  match m.messageId t.name with
  | .error e => .error e
  | .ok id =>
    match t.encode x with
    | .error e => .error e
    | .ok payload => .ok (Frame.encode id payload)

end Manager
end StateSync
