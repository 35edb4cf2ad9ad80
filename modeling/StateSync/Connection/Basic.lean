import StateSync.Address.Basic
import StateSync.Handle

/-! Connections: the state of the handshake with one peer, and the channel that the application uses once
    the handshake is over. -/

namespace StateSync

/-- How far a connection has come. A client waits for its connection and then for the name that the server
    assigns; a server waits for the client's approval, connection, user name and acknowledgement. -/
inductive Phase where
  | connecting
  | awaitingAssignedName
  | awaitingApproval
  | approved
  | awaitingUsername
  | awaitingAck
  | connected
  | disconnected
  deriving DecidableEq, Repr, Inhabited

/-- What the application holds of a peer whose handshake is over. -/
structure Channel where
  connection : ConnectionId
  sessionName : String
  remote : Address
  deriving DecidableEq, Repr, Inhabited

structure Connection where
  id : ConnectionId
  /-- The place, among the transports of the manager, of the one that carries the link. -/
  transport : Nat
  peer : Peer
  remote : Address
  phase : Phase
  /-- The session name, once one is assigned. -/
  session : Option String
  channel : Option Channel
  deriving DecidableEq, Repr, Inhabited

/-- The handshake frame that a connection waits for. The next packet of its peer is that frame. -/
inductive PendingFrame where
  | username
  | assignedName
  | ack
  deriving DecidableEq, Repr, Inhabited

def PendingFrame.text : PendingFrame → String
  | username => "username"
  | assignedName => "assigned name"
  | ack => "acknowledgement"

instance : ToString PendingFrame := ⟨PendingFrame.text⟩

end StateSync
