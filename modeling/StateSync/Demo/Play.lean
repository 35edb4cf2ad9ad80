import StateSync.Demo.Player
import StateSync.Demo.Server

/-! A server and its players on one network, and the rounds in which they take their turns. -/

namespace StateSync

/-- What the server met since the journal was last taken. -/
structure Journal where
  acks : List (ConnectionId × UInt32)
  events : List NetEvent
  sent : List Sent

structure Play where
  network : Network
  server : Server
  players : List Player
  journal : Journal

namespace Play

def emptyJournal : Journal := ⟨[], [], []⟩

def join (n : Network) (remote : Address) (s : Settings) : List String → Except NetError (List Player) × Network
  | [] => (.ok [], n)
  | name :: names =>
    match Player.connect n remote name s with
    | (.error e, n) => (.error e, n)
    | (.ok p, n) =>
      match join n remote s names with
      | (.error e, n) => (.error e, n)
      | (.ok ps, n) => (.ok (p :: ps), n)

/-- Starts a server and connects players of the given names. -/
def start (n : Network) (s : Settings) (entities : Nat) (names : List String) : Except NetError Play :=
  match Server.start n s entities with
  | (.error e, _) => .error e
  | (.ok server, n) =>
    match server.address? with
    | none => .error .notRunning
    | some remote =>
      match join n remote s names with
      | (.error e, _) => .error e
      | (.ok players, n) => .ok ⟨n, server, players, emptyJournal⟩

/-- Hands the journal over and begins a new one. -/
def takeJournal (p : Play) : Journal × Play := (p.journal, { p with journal := emptyJournal })

/-! ### The server's turn -/

def handle (p : Play) : Play :=
  let (handled, server, n) := p.server.handle p.network
  { p with
    network := n
    server := server
    journal := { p.journal with acks := p.journal.acks ++ handled.acks, events := p.journal.events ++ handled.events } }

def noteSent (p : Play) : List Sent × Server × Network → Play
  | (sent, server, n) =>
    { p with network := n, server := server, journal := { p.journal with sent := p.journal.sent ++ sent } }

def runTicks (p : Play) (count : Nat) : Play := p.noteSent (p.server.runTicks p.network count)

def advance (p : Play) (frame : Nat) : Play := p.noteSent (p.server.advance p.network frame)

/-- The application does something with the server's manager. -/
def withManager (p : Play) (r : Manager Address UInt32 × Network) : Play :=
  { p with network := r.2, server := { p.server with manager := r.1 } }

/-! ### The players' turns -/

def change (p : Play) (i : Nat) (f : Player → Network → Player × Network) : Play :=
  match p.players[i]? with
  | none => p
  | some player =>
    let (player, n) := f player p.network
    { p with network := n, players := p.players.set i player }

def update (p : Play) (frame i : Nat) : Play := p.change i fun player n => player.update n frame

def quit (p : Play) (i : Nat) : Play := p.change i Player.shutdown

/-! ### Rounds -/

/-- A frame for all: the server, then the players in order. -/
def round (p : Play) (frame : Nat) : Play :=
  (List.range p.players.length).foldl (fun p i => p.update frame i) (p.handle.advance frame)

def rounds (p : Play) (frame : Nat) : Nat → Play
  | 0 => p
  | count + 1 => (p.round frame).rounds frame count

end Play
end StateSync
