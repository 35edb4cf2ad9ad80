/-! Snapshots of the simulation. A game state covers the ticks from `fromTick` to `toTick`: a full one
    starts at tick zero and stands by itself, any other is a delta on top of the state at `fromTick`. -/

namespace StateSync

/-- Raw bytes, as they travel and as components hold them. -/
abbrev Bytes := List UInt8

/-- One piece of an entity, opaque to all but the simulation, under its network id. -/
structure Component where
  netId : UInt16
  data : Bytes
  deriving DecidableEq, Repr, Inhabited

structure Entity where
  uid : UInt32
  components : List Component
  deriving DecidableEq, Repr, Inhabited

structure GameState where
  fromTick : UInt32
  toTick : UInt32
  /-- The last command of the receiving player that the simulation has carried out. -/
  commandAck : UInt32
  entities : List Entity
  deletions : List UInt32
  /-- A placeholder made by a client that has no data for a tick. It holds no entities. -/
  extrapolated : Bool
  deriving DecidableEq, Repr

namespace GameState

/-- A state of a range of ticks without contents. -/
def blank (fromTick toTick : UInt32) : GameState := ⟨fromTick, toTick, 0, [], [], false⟩

instance : Inhabited GameState := ⟨blank 0 0⟩

def full (tick : UInt32) : GameState := blank 0 tick

def placeholder (fromTick toTick : UInt32) : GameState := { blank fromTick toTick with extrapolated := true }

def isFull (s : GameState) : Bool := s.fromTick = 0

/-- Whether the state leaves no gap behind a client that has applied the ticks up to `tick`, and brings it
    forward. -/
def chainsFrom (s : GameState) (tick : UInt32) : Bool := s.fromTick ≤ tick && tick < s.toTick

theorem chainsFrom_iff {s : GameState} {tick : UInt32} :
    s.chainsFrom tick = true ↔ s.fromTick ≤ tick ∧ tick < s.toTick := by
  simp [chainsFrom]

end GameState
end StateSync
