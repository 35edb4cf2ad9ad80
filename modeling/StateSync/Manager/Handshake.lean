import StateSync.Manager.Basic

/-! The end of connections and the frames of the handshake.

    Once both transports report the connection, the client sends the user name it would like. The server
    answers with the session name it assigns, unless the name is not valid or its hook denies it. The client
    acknowledges, and has its channel; the server takes the acknowledgement, has its channel too, and sends
    the name table. A frame that is not what was expected, or that cannot be sent, ends the connection. -/

namespace StateSync.Manager
variable {μ ι δ : Type} [Medium μ ι]

/-! ### The end of a connection -/

/-- What the application is told when a connection ends: nothing, if the connection never was anything to
    it. -/
def farewell (m : Manager ι δ) (c : Connection) (reason : String) : Option NetEvent :=
  match c.channel with
  | some ch => some (.disconnected c.id ch.sessionName reason)
  | none => if m.isServer then none else some (.connectFailed c.remote reason)

def teardown (m : Manager ι δ) (id : ConnectionId) (reason : String) : Manager ι δ :=
  let m := m.clearPending id
  match m.connections.remove id with
  | none => m
  | some (c, connections) =>
    let m := { m with connections := connections }
    match m.farewell c reason with
    | some e => m.pushEvent e
    | none => m

/-- Asks the transport of a connection to disconnect its peer. -/
def hangUp (m : Manager ι δ) (w : μ) (id : ConnectionId) (reason : String) : μ :=
  match m.connections.get? id with
  | none => w
  | some c =>
    match m.transportOf? c with
    | none => w
    | some h => Medium.disconnect w h c.peer reason

def reject (m : Manager ι δ) (w : μ) (id : ConnectionId) (reason : String) : Manager ι δ × μ :=
  (m.teardown id reason, m.hangUp w id reason)

def sendTo (m : Manager ι δ) (w : μ) (c : Connection) (bytes : Bytes) (d : Delivery) : Except NetError Unit × μ :=
  match m.transportOf? c with
  | none => (.error .notRunning, w)
  | some h => Medium.send w h c.peer bytes d

/-! ### Server -/

def textBytes (s : String) : Bytes := s.toUTF8.toList

def textOfBytes? (bs : Bytes) : Option String := String.fromUTF8? ⟨bs.toArray⟩

def askHook (m : Manager ι δ) (r : ConnectRequest) : Verdict × Manager ι δ :=
  match m.hook with
  | none => (.allow, m)
  | some h =>
    let (v, h) := h.ask r
    (v, { m with hook := some h })

/-- Gives a connection its session name and tells the peer. -/
def assignName (m : Manager ι δ) (w : μ) (c : Connection) (name : String) : Manager ι δ × μ :=
  let m := m.modifyConnection c.id fun c => { c with session := some name, phase := .awaitingAck }
  match m.sendTo w c (textBytes name) .ordered with
  | (.error _, w) => m.reject w c.id "Failed to send session name"
  | (.ok _, w) => (m.expect c.id .ack, w)

def receiveUsername (m : Manager ι δ) (w : μ) (id : ConnectionId) (bs : Bytes) : Manager ι δ × μ :=
  match textOfBytes? bs with
  | none => m.reject w id "Username is invalid (not UTF-8)"
  | some requested =>
    match Username.fault? requested with
    | some why => m.reject w id ("Username is invalid (" ++ why.message ++ ")")
    | none =>
      match m.connections.get? id with
      | none => (m, w)
      | some c =>
        let name := SessionName.resolve requested m.connections.sessionNames
        match m.askHook ⟨id, c.remote, requested, name⟩ with
        | (.deny, m) => m.reject w id "Connection denied"
        | (.allow, m) => m.assignName w c name

/-- The text with which a client acknowledges its name. -/
def ackText : String := "ok"

/-- Locks the name table and sends it to the peer of a connection. -/
def sendStringTable (m : Manager ι δ) (w : μ) (id : ConnectionId) : Except NetError Unit × Manager ι δ × μ :=
  let m := { m with strings := m.strings.lock }
  match m.connections.get? id with
  | none => (.error (.noChannel id), m, w)
  | some c =>
    match MessageType.stringTable.encode m.strings.entries with
    | .error e => (.error e, m, w)
    | .ok payload =>
      let (r, w) := m.sendTo w c (Frame.encode StringTable.bootstrapId payload) .ordered
      (r, m, w)

def openChannel (m : Manager ι δ) (c : Connection) (name : String) : Manager ι δ :=
  m.modifyConnection c.id fun c =>
    { c with session := some name, channel := some ⟨c.id, name, c.remote⟩, phase := .connected }

def receiveAck (m : Manager ι δ) (w : μ) (id : ConnectionId) (bs : Bytes) : Manager ι δ × μ :=
  if bs ≠ textBytes ackText then m.reject w id "Invalid handshake acknowledgement"
  else
    match m.connections.get? id with
    | none => (m, w)
    | some c =>
      match c.session with
      | none => (m, w)
      | some name =>
        match (m.openChannel c name).sendStringTable w id with
        | (.error _, m, w) => m.reject w id "Failed to send string table"
        | (.ok _, m, w) => (m.pushEvent (.connected id name c.remote), w)

/-! ### Client -/

/-- The connection stands: ask for the user name. -/
def sendUsername (m : Manager ι δ) (w : μ) (c : Connection) : Manager ι δ × μ :=
  match m.sendTo w c (textBytes m.username) .ordered with
  | (.error _, w) => m.reject w c.id "Failed to send username"
  | (.ok _, w) => ((m.setPhase c.id .awaitingAssignedName).expect c.id .assignedName, w)

def receiveAssignedName (m : Manager ι δ) (w : μ) (id : ConnectionId) (bs : Bytes) : Manager ι δ × μ :=
  match (textOfBytes? bs).filter (!·.isEmpty) with
  | none => m.reject w id "Malformed session name"
  | some name =>
    match m.connections.get? id with
    | none => (m, w)
    | some c =>
      match m.sendTo w c (textBytes ackText) .ordered with
      | (.error _, w) => m.reject w id "Failed to acknowledge session name"
      | (.ok _, w) => ((m.openChannel c name).pushEvent (.connected id name c.remote), w)

def receiveHandshake (m : Manager ι δ) (w : μ) (id : ConnectionId) (f : PendingFrame) (bs : Bytes) :
    Manager ι δ × μ :=
  match f with
  | .username => m.receiveUsername w id bs
  | .ack => m.receiveAck w id bs
  | .assignedName => m.receiveAssignedName w id bs

end StateSync.Manager
