import StateSync.Address.Reader
import StateSync.Binary32.Decimal
import StateSync.Error
import StateSync.State.Buffer
import StateSync.Text.Trim
import StateSync.Transport.Impairment

/-! The settings of one side of a connection, and how they are changed by key and text. A change gives the
    settings also where it is refused. -/

namespace StateSync

structure Settings where
  port : UInt16
  /-- The hosts that a server listens on, separated by commas. -/
  hosts : String
  tickRate : Nat
  commandRate : Nat
  /-- Bytes that each transport may send in a second; zero is no limit. -/
  rateLimit : Nat
  buffer : BufferSettings
  /-- How long a shutdown may take, in milliseconds. -/
  shutdownTimeout : Nat
  /-- The part of unreliable packets to lose, in percent. -/
  loss : Binary32
  minLatency : Nat
  maxLatency : Nat
  jitter : Nat
  deriving DecidableEq, Repr

namespace Settings

def protocolVersion : Nat := 1

def defaultPort : UInt16 := 27015

def defaultRate : Nat := 60

def initial : Settings where
  port := defaultPort
  hosts := "0.0.0.0"
  tickRate := defaultRate
  commandRate := defaultRate
  rateLimit := 0
  buffer := {}
  shutdownTimeout := 2000
  loss := ⟨0⟩
  minLatency := 0
  maxLatency := 0
  jitter := 0

instance : Inhabited Settings := ⟨initial⟩

inductive Key where
  | port
  | hosts
  | tickRate
  | commandRate
  | rateLimit
  | bufferMin
  | bufferMax
  | extrapolation
  | shutdownTimeout
  | loss
  | minLatency
  | maxLatency
  | jitter
  deriving DecidableEq, Repr, Inhabited

namespace Key

def all : List Key :=
  [port, hosts, tickRate, commandRate, rateLimit, bufferMin, bufferMax, extrapolation, shutdownTimeout, loss,
    minLatency, maxLatency, jitter]

def text : Key → String
  | port => "net.port"
  | hosts => "net.bindto"
  | tickRate => "net.tickrate"
  | commandRate => "net.cmdrate"
  | rateLimit => "net.ratelimit"
  | bufferMin => "net.buffer_min"
  | bufferMax => "net.buffer_max"
  | extrapolation => "net.extrapolation"
  | shutdownTimeout => "net.shutdown_timeout_ms"
  | loss => "net.sim_loss"
  | minLatency => "net.sim_min_latency"
  | maxLatency => "net.sim_max_latency"
  | jitter => "net.sim_jitter"

def ofText? (s : String) : Option Key := all.find? (·.text = s)

end Key

/-! ### Reading values -/

/-- Reads a value, trimmed, by a reader of its characters. -/
def readValue {α : Type} (reader : List Char → Option α) (key value : String) : Except SettingFault α :=
  match reader (Text.trimmed value.toList) with
  | some x => .ok x
  | none => .error (.unreadable key value)

def bound16 : Nat := UInt16.size

def bound32 : Nat := UInt32.size

def bound64 : Nat := UInt64.size

def readNumber (bound : Nat) (key value : String) : Except SettingFault Nat :=
  readValue (Text.natural? bound) key value

def readPositive (key value : String) : Except SettingFault Nat :=
  match readNumber bound32 key value with
  | .error e => .error e
  | .ok n => if n = 0 then .error (.notPositive key) else .ok n

def flag? (cs : List Char) : Option Bool :=
  if cs = "true".toList then some true else if cs = "false".toList then some false else none

def readPercent (key value : String) : Except SettingFault Binary32 :=
  match readValue Binary32.ofChars? key value with
  | .error e => .error e
  | .ok x => if Binary32.le ⟨0⟩ x && x.le (Binary32.ofNat 100) then .ok x else .error (.notPercent key)

/-- The pieces of a text between separators; one more than there are separators. -/
def pieces (separator : Char) : List Char → List (List Char)
  | [] => [[]]
  | c :: cs =>
    match pieces separator cs with
    | [] => []
    | p :: ps => if c = separator then [] :: p :: ps else (c :: p) :: ps

/-- Reads hosts in order, up to the first that is none. -/
def readHosts : List (List Char) → Except SettingFault (List Host)
  | [] => .ok []
  | p :: ps =>
    match Host.ofChars? p with
    | none => .error (.notHost (String.ofList p))
    | some h =>
      match readHosts ps with
      | .error e => .error e
      | .ok hs => .ok (h :: hs)

/-- One or more hosts, separated by commas; what is blank between commas does not count. -/
def hostList (text : String) : Except SettingFault (List Host) :=
  match readHosts (((pieces ',' text.toList).map Text.trimmed).filter (!·.isEmpty)) with
  | .error e => .error e
  | .ok [] => .error .noHosts
  | .ok hs => .ok hs

/-! ### Changes -/

/-- Puts a value that has been read into the settings. -/
def put {α : Type} (s : Settings) (r : Except SettingFault α) (f : Settings → α → Settings) :
    Except SettingFault Unit × Settings :=
  match r with
  | .ok x => (.ok (), f s x)
  | .error e => (.error e, s)

def setKey (s : Settings) (key : Key) (value : String) : Except SettingFault Unit × Settings :=
  match key with
  | .port => s.put (readNumber bound16 key.text value) fun s n => { s with port := UInt16.ofNat n }
  | .hosts => s.put (hostList value) fun s _ => { s with hosts := value }
  | .tickRate => s.put (readPositive key.text value) fun s n => { s with tickRate := n }
  | .commandRate => s.put (readPositive key.text value) fun s n => { s with commandRate := n }
  | .rateLimit => s.put (readNumber bound32 key.text value) fun s n => { s with rateLimit := n }
  | .bufferMin =>
    s.put (readNumber bound64 key.text value) fun s n => { s with buffer := { s.buffer with minSize := n } }
  | .bufferMax =>
    s.put (readNumber bound64 key.text value) fun s n => { s with buffer := { s.buffer with maxSize := n } }
  | .extrapolation =>
    s.put (readValue flag? key.text value) fun s b => { s with buffer := { s.buffer with extrapolation := b } }
  | .shutdownTimeout => s.put (readNumber bound64 key.text value) fun s n => { s with shutdownTimeout := n }
  | .loss => s.put (readPercent key.text value) fun s x => { s with loss := x }
  | .minLatency => s.put (readNumber bound32 key.text value) fun s n => { s with minLatency := n }
  | .maxLatency => s.put (readNumber bound32 key.text value) fun s n => { s with maxLatency := n }
  | .jitter => s.put (readNumber bound32 key.text value) fun s n => { s with jitter := n }

def set (s : Settings) (key value : String) : Except SettingFault Unit × Settings :=
  match Key.ofText? key with
  | some k => s.setKey k value
  | none => (.error (.unknown key), s)

/-! ### What follows from the settings -/

def addresses (s : Settings) : Except SettingFault (List Address) :=
  match hostList s.hosts with
  | .error e => .error e
  | .ok hs => .ok (hs.map fun h => ⟨h, s.port⟩)

/-- The trouble to simulate: none unless there is some to simulate. So it is in a build for debugging; others simulate
    none whatever the settings. -/
def impairment (s : Settings) : Impairment :=
  ⟨Binary32.lt ⟨0⟩ s.loss || 0 < s.maxLatency || 0 < s.jitter, s.loss, s.minLatency, s.maxLatency, s.jitter⟩

end Settings
end StateSync
