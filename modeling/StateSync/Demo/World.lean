import StateSync.Assoc
import StateSync.Archive.Word
import StateSync.Binary32.Angle
import StateSync.Handle
import StateSync.State.Delta

/-! A small world to synchronise: points that move in a square and bounce off its sides. The world keeps the
    states of its latest ticks, and knows the tick each client has acknowledged, so it can send deltas. -/

namespace StateSync

structure Mover where
  uid : UInt32
  x : Binary32
  y : Binary32
  dx : Binary32
  dy : Binary32
  deriving DecidableEq, Repr, Inhabited

structure World where
  tick : UInt32
  movers : List Mover
  current : GameState
  /-- The full states of the latest ticks. -/
  history : SortedMap GameState
  /-- The greatest tick that each client has acknowledged. -/
  acked : Assoc ConnectionId UInt32
  deriving DecidableEq

namespace Mover

/-- Half of the side of the square. -/
def arena : Binary32 := Binary32.ofNat 50

/-- The angle between the directions of one mover and the next. -/
def spread : Binary32 := Binary32.ofRatio false 7 10

def speed : Binary32 := Binary32.ofRatio false 1 2

/-- The mover of a uid starts in the middle, in a direction of its own. -/
def create (uid : UInt32) : Mover :=
  let angle := (Binary32.ofNat uid.toNat).mul spread
  ⟨uid, ⟨0⟩, ⟨0⟩, angle.cos.mul speed, angle.sin.mul speed⟩

/-- One coordinate and its movement after a tick; past the side of the square the movement turns. -/
def bounce (p d : Binary32) : Binary32 × Binary32 :=
  let p := p.add d
  (p, if arena.lt p.abs then d.neg else d)

def step (m : Mover) : Mover :=
  let (x, dx) := bounce m.x m.dx
  let (y, dy) := bounce m.y m.dy
  ⟨m.uid, x, y, dx, dy⟩

/-- The network id of the component that holds a position. -/
def positionId : UInt16 := 0

def coordinateBytes (p : Binary32) : Bytes := Archive.leBytes 4 p.bits.toNat

def entity (m : Mover) : Entity := ⟨m.uid, [⟨positionId, coordinateBytes m.x ++ coordinateBytes m.y⟩]⟩

end Mover

namespace World

def historyTicks : UInt32 := 64

def uids (n : Nat) : List UInt32 := (List.range n).map fun i => UInt32.ofNat (i + 1)

/-- A world of `n` movers before its first tick. -/
def create (n : Nat) : World := ⟨0, (uids n).map Mover.create, .full 0, SortedMap.empty, Assoc.empty⟩

instance : Inhabited World := ⟨create 0⟩

/-- The tick behind which nothing is kept. -/
def oldest (tick : UInt32) : UInt32 := if tick < historyTicks then 0 else tick - historyTicks

def snapshot (tick : UInt32) (movers : List Mover) : GameState :=
  { GameState.full tick with entities := movers.map (·.entity) }

def step (w : World) : World :=
  let tick := w.tick + 1
  let movers := w.movers.map (·.step)
  let state := snapshot tick movers
  { w with
    tick := tick
    movers := movers
    current := state
    history := (w.history.insert tick state).above (oldest tick) }

/-- Takes note of an acknowledgement. One for an earlier tick changes nothing. -/
def ack (w : World) (id : ConnectionId) (tick : UInt32) : World :=
  { w with acked := w.acked.insert id (max ((w.acked.get? id).getD 0) tick) }

def forget (w : World) (id : ConnectionId) : World := { w with acked := w.acked.erase id }

/-- The state that a delta for the client can be built on: the acknowledged one, if it is kept and lies
    behind the current one. -/
def base? (w : World) (id : ConnectionId) : Option GameState :=
  ((w.acked.get? id).bind w.history.get?).filter (·.toTick < w.current.toTick)

/-- What to send to a client: a delta if there is a base for it, else the full state. -/
def stateFor (w : World) (id : ConnectionId) : GameState :=
  match w.base? id with
  | some base => base.deltaFrom w.current
  | none => w.current

end World

/-- The position that an entity shows, by the first component for it. -/
def Entity.position? (e : Entity) : Option (Binary32 × Binary32) :=
  match e.components.find? (·.netId = Mover.positionId) with
  | none => none
  | some c =>
    if c.data.length < 8 then none
    else
      let coordinate (p : Nat) : Binary32 := ⟨UInt32.ofNat (Archive.ofLeBytes (Archive.slice c.data p 4))⟩
      some (coordinate 0, coordinate 4)

end StateSync
