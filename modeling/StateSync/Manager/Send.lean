import StateSync.Manager.Handshake

/-! Sending messages on channels. -/

namespace StateSync.Manager
variable {μ ι δ : Type} [Medium μ ι]

def sendFrame (m : Manager ι δ) (w : μ) (id : ConnectionId) (frame : Bytes) (d : Delivery) :
    Except NetError Unit × μ :=
  if !m.isRunning then (.error .notRunning, w)
  else
    match (m.connections.get? id).filter (·.channel.isSome) with
    | none => (.error (.noChannel id), w)
    | some c => m.sendTo w c frame d

def send {α : Type} (m : Manager ι δ) (w : μ) (id : ConnectionId) (t : MessageType α) (x : α) :
    Except NetError Unit × μ :=
  match m.build t x with
  | .error e => (.error e, w)
  | .ok frame => m.sendFrame w id frame t.delivery

/-- Sends a frame on channels in order, and counts those on which it went out. -/
def sendAll (m : Manager ι δ) (w : μ) (frame : Bytes) (d : Delivery) : List ConnectionId → Nat × μ
  | [] => (0, w)
  | id :: ids =>
    let (r, w) := m.sendFrame w id frame d
    let (count, w) := m.sendAll w frame d ids
    (if r.toBool then count + 1 else count, w)

/-- Sends a message on all channels, and tells on how many it went out. -/
def broadcast {α : Type} (m : Manager ι δ) (w : μ) (t : MessageType α) (x : α) : Except NetError Nat × μ :=
  match m.build t x with
  | .error e => (.error e, w)
  | .ok frame =>
    let (count, w) := m.sendAll w frame t.delivery (m.channels.map (·.connection))
    (.ok count, w)

end StateSync.Manager
