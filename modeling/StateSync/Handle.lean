/-! Handles: the numbers by which connections and the peers at the other end of a link are known. -/

namespace StateSync

/-- A connection, numbered from zero in the order of opening. No number is used twice, as long as there are fewer than
    2³² and all of them fit in 32 bits. -/
structure ConnectionId where
  val : Nat
  deriving DecidableEq, Repr, Inhabited

/-- A link of one transport to another. Only the transport that gave the number knows it. -/
structure Peer where
  val : Nat
  deriving DecidableEq, Repr, Inhabited

def ConnectionId.text (id : ConnectionId) : String := s!"conn#{id.val}"

def Peer.text (p : Peer) : String := s!"peer#{p.val}"

instance : ToString ConnectionId := ⟨ConnectionId.text⟩

instance : ToString Peer := ⟨Peer.text⟩

end StateSync
