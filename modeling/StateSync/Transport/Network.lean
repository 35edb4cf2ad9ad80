import StateSync.Assoc
import StateSync.Transport.Basic

/-! A network inside one process. An endpoint is bound to an address and reaches the others by theirs.
    Loss, latency and a rate limit are simulated where a packet is sent. Every event waits in the inbox of
    an endpoint for its release; those of one release time keep the order in which they were sent. -/

namespace StateSync

inductive LinkState where
  | awaitingApproval
  | connected
  deriving DecidableEq, Repr, Inhabited

structure Link where
  remote : Address
  /-- The number of the link at the other end. -/
  remotePeer : Peer
  state : LinkState
  /-- The latest release of an ordered packet, before which none that is sent later may arrive. -/
  orderedRelease : Nat
  deriving DecidableEq, Repr

/-- An event on its way, with the time from which it can be polled. -/
structure Parcel where
  release : Nat
  event : TransportEvent
  deriving DecidableEq, Repr

structure Traffic where
  sent : Nat
  received : Nat
  dropped : Nat
  bytesSent : Nat
  bytesReceived : Nat
  deriving DecidableEq, Repr, Inhabited

def Traffic.none : Traffic := ⟨0, 0, 0, 0, 0⟩

structure Endpoint where
  listening : Bool
  /-- The events on their way here, by release. -/
  inbox : List Parcel
  links : Assoc Peer Link
  impairment : Impairment
  rateLimit : Nat
  /-- The start of the current second of the rate limit. -/
  windowStart : Nat
  windowBytes : Nat
  traffic : Traffic
  deriving DecidableEq

/-- The endpoints by address, under one clock. Times are nanoseconds. -/
structure Network where
  clock : Nat
  endpoints : Assoc Address Endpoint
  nextPeer : Nat
  /-- The port that is tried first for an endpoint that may have any. -/
  nextPort : UInt16
  /-- The packets sent so far, by any endpoint. -/
  sends : Nat
  /-- Whether the sum of a packet's delay has run over its 32 bits. A build that checks its sums stops there. -/
  overran : Bool
  /-- The rolls for each packet, by its number. -/
  luck : Nat → Luck

namespace Parcel

/-- Puts a parcel behind all that are released no later. -/
def enqueue (p : Parcel) : List Parcel → List Parcel
  | [] => [p]
  | q :: qs => if q.release ≤ p.release then q :: enqueue p qs else p :: q :: qs

end Parcel

namespace Endpoint

def fresh (now : Nat) : Endpoint := ⟨false, [], Assoc.empty, Impairment.off, 0, now, 0, Traffic.none⟩

def connections (e : Endpoint) : List Peer := (e.links.entries.filter (·.2.state = .connected)).map (·.1)

end Endpoint

namespace Network

/-- The lowest port given to endpoints that may have any. -/
def firstPort : UInt16 := 50000

/-- The length of the rate limit's window. -/
def rateWindow : Nat := 1000000000

def millisecond : Nat := 1000000

def create (luck : Nat → Luck) : Network := ⟨0, Assoc.empty, 1, firstPort, 0, false, luck⟩

def calm : Network := create fun _ => ⟨0, 0, 0⟩

instance : Inhabited Network := ⟨calm⟩

def elapse (n : Network) (time : Nat) : Network := { n with clock := n.clock + time }

/-! ### Look-up and single updates -/

def endpoint? (n : Network) (addr : Address) : Option Endpoint := n.endpoints.get? addr

def isBound (n : Network) (addr : Address) : Bool := n.endpoints.contains addr

def link? (n : Network) (addr : Address) (peer : Peer) : Option Link :=
  (n.endpoint? addr).bind fun e => e.links.get? peer

def update (n : Network) (addr : Address) (f : Endpoint → Endpoint) : Network :=
  { n with endpoints := n.endpoints.modify addr f }

def setLink (n : Network) (addr : Address) (peer : Peer) (l : Link) : Network :=
  n.update addr fun e => { e with links := e.links.insert peer l }

def dropLink (n : Network) (addr : Address) (peer : Peer) : Network :=
  n.update addr fun e => { e with links := e.links.erase peer }

/-- Sends an event to an endpoint. To an address that is not bound it goes astray. -/
def post (n : Network) (addr : Address) (release : Nat) (event : TransportEvent) : Network :=
  n.update addr fun e => { e with inbox := Parcel.enqueue ⟨release, event⟩ e.inbox }

/-! ### Binding -/

def bind (n : Network) (addr : Address) : Except NetError Address × Network :=
  if n.isBound addr then (.error (.transport (.inUse addr)), n)
  else (.ok addr, { n with endpoints := n.endpoints.insert addr (Endpoint.fresh n.clock) })

/-- The port to try after `port`: after the last one comes the first again. -/
def portAfter (port : UInt16) : UInt16 := if port + 1 < firstPort then firstPort else port + 1

def loopback (port : UInt16) : Address := ⟨Host.loopback, port⟩

/-- The first port from `port` on, of `tries` ports, that is free on the loopback host. -/
def freePort? (n : Network) (port : UInt16) : Nat → Option UInt16
  | 0 => none
  | tries + 1 => if n.isBound (loopback port) then n.freePort? (portAfter port) tries else some port

def portCount : Nat := 65536 - firstPort.toNat

/-- Binds an endpoint to a free port of the loopback host, if there is one. Trying each port once is
    enough. -/
def bindAny (n : Network) : Option (Address × Network) :=
  (n.freePort? n.nextPort portCount).map fun port =>
    (loopback port,
      { n with nextPort := portAfter port
               endpoints := n.endpoints.insert (loopback port) (Endpoint.fresh n.clock) })

/-! ### Links -/

/-- Takes down a link at both ends and tells both. -/
def sever (n : Network) (addr : Address) (peer : Peer) (reason : String) : Network :=
  match n.link? addr peer with
  | none => n
  | some l =>
    let n := (n.dropLink addr peer).post addr n.clock (.disconnected peer reason)
    if (n.link? l.remote l.remotePeer).isSome then
      (n.dropLink l.remote l.remotePeer).post l.remote n.clock (.disconnected l.remotePeer reason)
    else n

/-- Takes down all links of an endpoint, by ascending peer. -/
def severAll (n : Network) (addr : Address) (reason : String) : Network :=
  match n.endpoint? addr with
  | none => n
  | some e => e.links.keys.foldl (fun n peer => n.sever addr peer reason) n

def start (n : Network) (addr : Address) : Except NetError Unit × Network :=
  if n.isBound addr then (.ok (), n.update addr fun e => { e with listening := true })
  else (.error (.transport (.notBound addr)), n)

def shutdown (n : Network) (addr : Address) (reason : String) : Network :=
  (n.update addr fun e => { e with listening := false }).severAll addr reason

def isShutdownComplete (n : Network) (addr : Address) : Bool :=
  match n.endpoint? addr with
  | none => true
  | some e => !e.listening && e.links.entries.isEmpty

def close (n : Network) (addr : Address) : Network :=
  let n := n.severAll addr "endpoint closed"
  { n with endpoints := n.endpoints.erase addr }

/-- Binds an endpoint to any port and gives it up, a number of times. Gives the last address. -/
def cycle (n : Network) (last : Option Address) : Nat → Option Address × Network
  | 0 => (last, n)
  | times + 1 =>
    match n.bindAny with
    | none => (last, n)
    | some (addr, n) => (n.close addr).cycle (some addr) times

/-- Opens a link to an endpoint that listens, and asks it for approval. The nearer end is numbered
    first. -/
def connect (n : Network) (addr remote : Address) : Except NetError Peer × Network :=
  if !(n.endpoint? remote).any (·.listening) || remote = addr then (.error (.transport (.noListener remote)), n)
  else
    let here : Peer := ⟨n.nextPeer⟩
    let there : Peer := ⟨n.nextPeer + 1⟩
    let n := { n with nextPeer := n.nextPeer + 2 }
    let n := n.setLink addr here ⟨remote, there, .awaitingApproval, n.clock⟩
    let n := n.setLink remote there ⟨addr, here, .awaitingApproval, n.clock⟩
    (.ok here, n.post remote n.clock (.approvalRequest there))

/-- Grants a request: both ends are connected and told so. -/
def approve (n : Network) (addr : Address) (peer : Peer) : Except NetError Unit × Network :=
  match n.link? addr peer with
  | none => (.error (.unknownPeer peer), n)
  | some l =>
    if l.state = .connected then (.ok (), n)
    else
      let n := n.setLink addr peer { l with state := .connected }
      let n := match n.link? l.remote l.remotePeer with
        | some r => n.setLink l.remote l.remotePeer { r with state := .connected }
        | none => n
      (.ok (), (n.post addr n.clock (.connected peer "")).post l.remote n.clock (.connected l.remotePeer ""))

/-! ### Packets -/

/-- Starts the window of the rate limit anew when a second has passed. -/
def restartWindow (now : Nat) (e : Endpoint) : Endpoint :=
  if e.windowStart + rateWindow ≤ now then { e with windowStart := now, windowBytes := 0 } else e

def isOverBudget (e : Endpoint) (length : Nat) : Bool :=
  e.rateLimit ≠ 0 && e.rateLimit < e.windowBytes + length

def countDropped (e : Endpoint) : Endpoint := { e with traffic := { e.traffic with dropped := e.traffic.dropped + 1 } }

def countSent (length : Nat) (e : Endpoint) : Endpoint :=
  { e with
    windowBytes := e.windowBytes + length
    traffic := { e.traffic with sent := e.traffic.sent + 1, bytesSent := e.traffic.bytesSent + length } }

def countReceived (length : Nat) (e : Endpoint) : Endpoint :=
  { e with traffic :=
      { e.traffic with received := e.traffic.received + 1, bytesReceived := e.traffic.bytesReceived + length } }

/-- Hands a packet to a connected link. An ordered packet is released no earlier than the ordered ones
    before it. -/
def transmit (n : Network) (addr : Address) (peer : Peer) (bytes : Bytes) (d : Delivery) (delay : Nat) :
    Except NetError Unit × Network :=
  match n.link? addr peer with
  | none => (.error (.unknownPeer peer), n)
  | some l =>
    if l.state ≠ .connected then (.error (.transport (.notConnected peer)), n)
    else
      let release := if d.isOrdered then max (n.clock + delay) l.orderedRelease else n.clock + delay
      let n := if d.isOrdered then n.setLink addr peer { l with orderedRelease := release } else n
      let n := n.post l.remote release (.data l.remotePeer bytes)
      (.ok (), n.update addr (countSent bytes.length))

/-- Takes note of a packet's delay that runs over. -/
def noteDelay (n : Network) (i : Impairment) (luck : Luck) : Network :=
  { n with overran := n.overran || i.runsOver luck }

/-- Sends a packet. Only unreliable ones are lost or held to the rate limit, before the link is looked at,
    and the sender is not told. The delay of the others is summed up first of all. -/
def send (n : Network) (addr : Address) (peer : Peer) (bytes : Bytes) (d : Delivery) :
    Except NetError Unit × Network :=
  match n.endpoint? addr with
  | none => (.error (.unknownPeer peer), n)
  | some e =>
    let luck := n.luck n.sends
    let n := { n with sends := n.sends + 1 }
    let delay := e.impairment.delay luck * millisecond
    if d.isReliable then (n.noteDelay e.impairment luck).transmit addr peer bytes d delay
    else if e.impairment.drops luck.loss then (.ok (), n.update addr countDropped)
    else
      let n := n.update addr (restartWindow n.clock)
      if isOverBudget (restartWindow n.clock e) bytes.length then (.ok (), n.update addr countDropped)
      else (n.noteDelay e.impairment luck).transmit addr peer bytes d delay

/-- Takes the first event of an inbox whose time has come. -/
def poll (n : Network) (addr : Address) : Option TransportEvent × Network :=
  match (n.endpoint? addr).map (·.inbox) with
  | some (p :: ps) =>
    if p.release ≤ n.clock then
      let n := n.update addr fun e => { e with inbox := ps }
      match p.event with
      | .data _ bytes => (some p.event, n.update addr (countReceived bytes.length))
      | _ => (some p.event, n)
    else (none, n)
  | _ => (none, n)

/-- Takes events that are due, `most` of them at the most. -/
def pollUpTo (n : Network) (addr : Address) : Nat → List TransportEvent × Network
  | 0 => ([], n)
  | most + 1 =>
    match n.poll addr with
    | (none, n) => ([], n)
    | (some e, n) =>
      let (es, n) := n.pollUpTo addr most
      (e :: es, n)

def pollAll (n : Network) (addr : Address) : List TransportEvent × Network :=
  n.pollUpTo addr (((n.endpoint? addr).map (·.inbox.length)).getD 0)

/-- The events that can still come to an endpoint without others sending any: those in its inbox, and for
    each link that it approves or takes down a notice. -/
def backlog (n : Network) (addr : Address) : Nat :=
  match n.endpoint? addr with
  | none => 0
  | some e => e.inbox.length + (e.links.values.map fun l => if l.state = .connected then 1 else 2).foldr (· + ·) 0

def connections (n : Network) (addr : Address) : List Peer := ((n.endpoint? addr).map (·.connections)).getD []

def remoteAddress (n : Network) (addr : Address) (peer : Peer) : Option Address := (n.link? addr peer).map (·.remote)

def setImpairment (n : Network) (addr : Address) (i : Impairment) : Network :=
  n.update addr fun e => { e with impairment := i }

def setRateLimit (n : Network) (addr : Address) (limit : Nat) : Network :=
  n.update addr fun e => { e with rateLimit := limit }

def traffic (n : Network) (addr : Address) : Traffic := ((n.endpoint? addr).map (·.traffic)).getD Traffic.none

instance : Medium Network Address where
  bind := bind
  localAddress _ addr := addr
  start := start
  shutdown := shutdown
  connect := connect
  approve := approve
  disconnect := sever
  send := send
  poll := poll
  backlog := backlog
  remoteAddress n addr peer := (n.remoteAddress addr peer, n)
  setImpairment := setImpairment
  setRateLimit := setRateLimit
  close := close

end Network
end StateSync
