import StateSync.Assoc
import StateSync.Connection.Basic

/-! The table of a manager's connections. A connection is found by its id, which is its place, or by its
    transport and peer. A removed connection leaves an empty place behind, so its id stays dead. -/

namespace StateSync

structure ConnectionTable where
  slots : List (Option Connection)
  /-- The id under which a peer of a transport was last entered. -/
  byPeer : Assoc (Nat × Peer) ConnectionId
  deriving DecidableEq

namespace ConnectionTable

def empty : ConnectionTable := ⟨[], Assoc.empty⟩

instance : Inhabited ConnectionTable := ⟨empty⟩

/-! ### Look-up -/

def get? (t : ConnectionTable) (id : ConnectionId) : Option Connection := t.slots[id.val]?.join

def isLive (t : ConnectionTable) (id : ConnectionId) : Bool := (t.get? id).isSome

def find? (t : ConnectionTable) (transport : Nat) (peer : Peer) : Option ConnectionId :=
  t.byPeer.get? (transport, peer)

def live (t : ConnectionTable) : List Connection := t.slots.filterMap id

def channels (t : ConnectionTable) : List Channel := t.live.filterMap (·.channel)

/-- The names held by live connections, also before they are acknowledged. -/
def sessionNames (t : ConnectionTable) : List String := t.live.filterMap (·.session)

def connectedCount (t : ConnectionTable) : Nat := (t.live.filter (·.phase = .connected)).length

/-- The number of peers that are entered. -/
def peerCount (t : ConnectionTable) : Nat := t.byPeer.size

/-! ### Updates -/

def insert (t : ConnectionTable) (transport : Nat) (peer : Peer) (remote : Address) (phase : Phase) :
    ConnectionId × ConnectionTable :=
  let id : ConnectionId := ⟨t.slots.length⟩
  (id, ⟨t.slots ++ [some ⟨id, transport, peer, remote, phase, none, none⟩], t.byPeer.insert (transport, peer) id⟩)

def modify (t : ConnectionTable) (id : ConnectionId) (f : Connection → Connection) : ConnectionTable :=
  { t with slots := t.slots.modify id.val (·.map f) }

/-- Empties the place of a connection and forgets its peer. Gives what was there. -/
def remove (t : ConnectionTable) (id : ConnectionId) : Option (Connection × ConnectionTable) :=
  (t.get? id).map fun c =>
    ({ c with phase := .disconnected }, ⟨t.slots.set id.val none, t.byPeer.erase (c.transport, c.peer)⟩)

end ConnectionTable

/-- The frames that connections wait for, one for each at the most. -/
abbrev PendingFrames := Assoc ConnectionId PendingFrame

end StateSync
