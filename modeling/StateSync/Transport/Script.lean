import StateSync.Transport.Basic

/-! Transports that do what a script says and write down what they are asked. The script queues the events
    that a transport reports and sets which calls fail; a call that does not fail succeeds at once. -/

namespace StateSync

inductive Call where
  | start
  | shutdown (reason : String)
  | connect (remote : Address)
  | approve (peer : Peer)
  | disconnect (peer : Peer) (reason : String)
  | send (peer : Peer) (bytes : Bytes) (delivery : Delivery)
  | remoteAddress (peer : Peer)
  | setImpairment (impairment : Impairment)
  | setRateLimit (limit : Nat)
  deriving DecidableEq, Repr, Inhabited

/-- What is written down: a transport asked for at an address, or a call on a transport. -/
inductive LogEntry where
  | bind (addr : Address)
  | call (transport : Nat) (call : Call)
  deriving DecidableEq, Repr, Inhabited

inductive Failing where
  | bind
  | start
  | connect
  | approve
  | send
  | remoteAddress
  | shutdown
  deriving DecidableEq, Repr, Inhabited

structure ScriptedTransport where
  address : Address
  queue : List TransportEvent
  deriving DecidableEq, Repr, Inhabited

structure Script where
  /-- The transports by number, in the order of creation. -/
  transports : List ScriptedTransport
  failing : List Failing
  nextPeer : Nat
  log : List LogEntry
  deriving DecidableEq, Repr

namespace Script

/-- The number of the first peer that a connection gives. -/
def firstPeer : Nat := 101

def create : Script := ⟨[], [], firstPeer, []⟩

instance : Inhabited Script := ⟨create⟩

def fails (s : Script) (f : Failing) : Bool := s.failing.contains f

/-- Makes a call fail from now on, or succeed again. -/
def setFailing (s : Script) (f : Failing) (on : Bool) : Script :=
  let others := s.failing.filter (· ≠ f)
  { s with failing := if on then f :: others else others }

def write (s : Script) (e : LogEntry) : Script := { s with log := s.log ++ [e] }

def writeCall (s : Script) (transport : Nat) (c : Call) : Script := s.write (.call transport c)

/-- Makes a transport; its number is the next one. -/
def add (s : Script) (addr : Address) : Nat × Script :=
  (s.transports.length, { s with transports := s.transports ++ [⟨addr, []⟩] })

def queue (s : Script) (transport : Nat) (e : TransportEvent) : Script :=
  { s with transports := s.transports.modify transport fun t => { t with queue := t.queue ++ [e] } }

def bind (s : Script) (addr : Address) : Except NetError Nat × Script :=
  let s := s.write (.bind addr)
  if s.fails .bind then (.error (.transport (.refused "bind")), s)
  else
    let (i, s) := s.add addr
    (.ok i, s)

def start (s : Script) (i : Nat) : Except NetError Unit × Script :=
  let s := s.writeCall i .start
  (if s.fails .start then .error (.transport (.refused "start")) else .ok (), s)

def connect (s : Script) (i : Nat) (remote : Address) : Except NetError Peer × Script :=
  let s := s.writeCall i (.connect remote)
  if s.fails .connect then (.error (.transport (.refused "connect")), s)
  else (.ok ⟨s.nextPeer⟩, { s with nextPeer := s.nextPeer + 1 })

def approve (s : Script) (i : Nat) (peer : Peer) : Except NetError Unit × Script :=
  let s := s.writeCall i (.approve peer)
  (if s.fails .approve then .error (.unknownPeer peer) else .ok (), s)

def send (s : Script) (i : Nat) (peer : Peer) (bytes : Bytes) (d : Delivery) : Except NetError Unit × Script :=
  let s := s.writeCall i (.send peer bytes d)
  (if s.fails .send then .error (.transport (.refused "send")) else .ok (), s)

/-- Peers live at one host; the port tells them apart. -/
def peerAddress (peer : Peer) : Address := ⟨.v4 10 9 8 7, UInt16.ofNat peer.val⟩

def remoteAddress (s : Script) (i : Nat) (peer : Peer) : Option Address × Script :=
  let s := s.writeCall i (.remoteAddress peer)
  (if s.fails .remoteAddress then none else some (peerAddress peer), s)

def poll (s : Script) (i : Nat) : Option TransportEvent × Script :=
  match (s.transports[i]?).map (·.queue) with
  | some (e :: es) => (some e, { s with transports := s.transports.modify i fun t => { t with queue := es } })
  | _ => (none, s)

def localAddress (s : Script) (i : Nat) : Address := ((s.transports[i]?).map (·.address)).getD default

def backlog (s : Script) (i : Nat) : Nat := ((s.transports[i]?).map (·.queue.length)).getD 0

instance : Medium Script Nat where
  bind := bind
  localAddress := localAddress
  start := start
  shutdown s i reason := s.writeCall i (.shutdown reason)
  connect := connect
  approve := approve
  disconnect s i peer reason := s.writeCall i (.disconnect peer reason)
  send := send
  poll := poll
  backlog := backlog
  remoteAddress := remoteAddress
  setImpairment s i x := s.writeCall i (.setImpairment x)
  setRateLimit s i limit := s.writeCall i (.setRateLimit limit)
  close s _ := s

end Script
end StateSync
