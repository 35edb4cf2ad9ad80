import StateSync.Delivery
import StateSync.Error
import StateSync.Transport.Impairment

/-! Transports, by what a manager needs of them. The transports of one kind share a medium, which holds all
    their state; a transport is known by a handle. A call gives its answer and the medium after it, so a
    medium may answer in any way and at any time as it likes. -/

namespace StateSync

inductive TransportEvent where
  | approvalRequest (peer : Peer)
  | connected (peer : Peer) (reason : String)
  | disconnected (peer : Peer) (reason : String)
  | data (peer : Peer) (bytes : Bytes)
  deriving DecidableEq, Repr, Inhabited

class Medium (μ : Type) (ι : outParam Type) where
  bind : μ → Address → Except NetError ι × μ
  localAddress : μ → ι → Address
  /-- Begins to accept requests for connections. -/
  start : μ → ι → Except NetError Unit × μ
  /-- Disconnects all peers and stops accepting requests. -/
  shutdown : μ → ι → String → μ
  connect : μ → ι → Address → Except NetError Peer × μ
  approve : μ → ι → Peer → Except NetError Unit × μ
  disconnect : μ → ι → Peer → String → μ
  send : μ → ι → Peer → Bytes → Delivery → Except NetError Unit × μ
  /-- Takes the next event that is due. -/
  poll : μ → ι → Option TransportEvent × μ
  /-- As many events as can be polled at the most, also with the events that a manager causes while it
      handles those before them. -/
  backlog : μ → ι → Nat
  remoteAddress : μ → ι → Peer → Option Address × μ
  setImpairment : μ → ι → Impairment → μ
  /-- Limits the bytes sent in a second; zero is no limit. -/
  setRateLimit : μ → ι → Nat → μ
  close : μ → ι → μ

end StateSync
