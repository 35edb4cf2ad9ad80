import StateSync.Manager.Handshake

/-! Handling what the transports report, and draining their events. -/

namespace StateSync.Manager
variable {μ ι δ : Type} [Medium μ ι]

/-! ### Frames on a channel -/

/-- Takes over a name table. A server has its own and takes none; a table that makes no sense is dropped. -/
def receiveStringTable (m : Manager ι δ) (payload : Bytes) : Manager ι δ :=
  if m.isServer then m
  else
    match MessageType.stringTable.decode payload with
    | .error _ => m
    | .ok entries =>
      match m.strings.replace entries with
      | .error _ => m
      | .ok strings => { m with strings := strings }

/-- Hands a frame on a channel to the handler of its kind. A frame without one is dropped. -/
def receiveFrame (m : Manager ι δ) (ch : Channel) (bs : Bytes) : Manager ι δ :=
  match Frame.split? bs with
  | .error _ => m
  | .ok (id, payload) =>
    if id = StringTable.bootstrapId then m.receiveStringTable payload
    else
      match m.strings.get? id with
      | none => m
      | some name =>
        match m.registry.dispatch name payload with
        | .error _ => m
        | .ok x => { m with received := m.received ++ [(ch, x)] }

/-! ### Events -/

/-- The connection of a peer that asks for approval, opened if there is none yet and the peer is still
    there. -/
def enroll (m : Manager ι δ) (w : μ) (i : Nat) (h : ι) (peer : Peer) : Option ConnectionId × Manager ι δ × μ :=
  match m.connections.find? i peer with
  | some id => (some id, m, w)
  | none =>
    match Medium.remoteAddress w h peer with
    | (none, w) => (none, m, w)
    | (some remote, w) =>
      let (id, connections) := m.connections.insert i peer remote .awaitingApproval
      (some id, { m with connections := connections }, w)

/-- Approves a connection that waits for it. If the peer has gone, the connection is forgotten. -/
def approve (m : Manager ι δ) (w : μ) (h : ι) (id : ConnectionId) (peer : Peer) : Manager ι δ × μ :=
  if m.phase? id ≠ some .awaitingApproval then (m, w)
  else
    match Medium.approve w h peer with
    | (.ok _, w) => (m.setPhase id .approved, w)
    | (.error _, w) =>
      match m.connections.remove id with
      | some (_, connections) => ({ m with connections := connections }, w)
      | none => (m, w)

/-- A peer asks to be connected. Clients take no requests. -/
def handleApproval (m : Manager ι δ) (w : μ) (i : Nat) (h : ι) (peer : Peer) : Manager ι δ × μ :=
  if !m.isServer then (m, w)
  else
    match m.enroll w i h peer with
    | (none, m, w) => (m, w)
    | (some id, m, w) => m.approve w h id peer

/-- The transport reports a connection: the handshake begins. -/
def handleConnected (m : Manager ι δ) (w : μ) (i : Nat) (peer : Peer) : Manager ι δ × μ :=
  match (m.connections.find? i peer).bind m.connections.get? with
  | none => (m, w)
  | some c =>
    match m.side, c.phase with
    | .server, .approved => ((m.setPhase c.id .awaitingUsername).expect c.id .username, w)
    | .client, .connecting => m.sendUsername w c
    | _, _ => (m, w)

def handleDisconnected (m : Manager ι δ) (i : Nat) (peer : Peer) (reason : String) : Manager ι δ :=
  match m.connections.find? i peer with
  | none => m
  | some id => m.teardown id reason

/-- A packet has come: the handshake frame its connection waits for, or a frame on its channel. -/
def handleData (m : Manager ι δ) (w : μ) (i : Nat) (peer : Peer) (bs : Bytes) : Manager ι δ × μ :=
  match m.connections.find? i peer with
  | none => (m, w)
  | some id =>
    match m.pending.get? id with
    | some f => (m.clearPending id).receiveHandshake w id f bs
    | none =>
      match m.channel? id with
      | none => (m, w)
      | some ch => (m.receiveFrame ch bs, w)

def handleEvent (m : Manager ι δ) (w : μ) (i : Nat) (h : ι) : TransportEvent → Manager ι δ × μ
  | .approvalRequest peer => m.handleApproval w i h peer
  | .connected peer _ => m.handleConnected w i peer
  | .disconnected peer reason => (m.handleDisconnected i peer reason, w)
  | .data peer bs => m.handleData w i peer bs

/-! ### Draining -/

/-- Handles events of one transport until none is due, `most` of them at the most. -/
def drain (m : Manager ι δ) (w : μ) (i : Nat) (h : ι) : Nat → Manager ι δ × μ
  | 0 => (m, w)
  | most + 1 =>
    match Medium.poll w h with
    | (none, w) => (m, w)
    | (some e, w) =>
      let (m, w) := m.handleEvent w i h e
      m.drain w i h most

/-- Drains transports in order; the first is in place `i`. -/
def drainFrom (m : Manager ι δ) (w : μ) (i : Nat) : List ι → Manager ι δ × μ
  | [] => (m, w)
  | h :: hs =>
    let (m, w) := m.drain w i h (Medium.backlog w h)
    m.drainFrom w (i + 1) hs

def process (m : Manager ι δ) (w : μ) : Manager ι δ × μ := m.drainFrom w 0 m.transports

end StateSync.Manager
