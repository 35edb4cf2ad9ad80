import StateSync.Binary32.Fixed
import StateSync.Demo.Play

/-! What a run of the demo tells the person who started it. -/

namespace StateSync

/-- A server's news of a connection. -/
def NetEvent.report? : NetEvent → Option String
  | .connected _ name remote => some s!"Client {name} joined from {remote}"
  | .disconnected _ name reason => some s!"Client {name} left: {reason}"
  | .connectFailed .. => none

namespace Player

/-- The ticks a player has had, by what they brought. -/
def summary (p : Player) : String :=
  let name := p.sessionName?.getD "<not connected>"
  s!"{name}: tick {p.tick.toNat}, applied {p.stats.applied}, extrapolated {p.stats.extrapolated}, " ++
    s!"stalled {p.stats.stalled}, {p.view.size} entities"

def position (p : Player) : Option String :=
  ((p.view.get? 1).bind (·.position?)).map fun (x, y) =>
    "  entity 1 at (" ++ x.fixedText 2 ++ ", " ++ y.fixedText 2 ++ ")"

end Player

namespace Play

/-- The lines that close a run. -/
def summary (p : Play) : List String :=
  s!"Server reached tick {p.server.world.tick.toNat}" ::
    p.players.flatMap fun player => player.summary :: player.position.toList

/-- All leave, and the server shuts down. -/
def finish (p : Play) : Play :=
  let p := (List.range p.players.length).foldl quit p
  p.withManager (p.server.manager.shutdown p.network "Server shutting down")

end Play

def Arguments.usage : List String :=
  ["Runs a server and several clients over an in-process network",
    "",
    "Options:",
    "  -c, --clients <N>          Clients [default: 3]",
    "  -e, --entities <N>         Moving entities [default: 4]",
    "  -s, --seconds <N>          Seconds to run [default: 5]",
    "  -t, --tick-rate <N>        Ticks per second [default: 60]",
    "  -u, --username <NAME>      Username shared by every client [default: player]",
    "      --extrapolation        Extrapolate instead of stalling when states run out",
    "      --loss-percent <N>     Packet loss percentage (0-100)",
    "      --min-latency <N>      Minimum latency in ms",
    "      --max-latency <N>      Maximum latency in ms",
    "      --jitter <N>           Jitter in ms",
    "      --set <KEY=VALUE>      Extra network setting",
    "  -h, --help                 Print help"]

end StateSync
