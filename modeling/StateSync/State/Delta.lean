import StateSync.State.View

/-! The delta between two full states: the entities that are new or differ, and the uids that are gone. -/

namespace StateSync.GameState

/-- Whether the base already shows the entity as it is. -/
def showsUnchanged (base : EntityView) (e : Entity) : Bool := base.get? e.uid = some e

def hasUid (s : GameState) (uid : UInt32) : Bool := s.entities.any (·.uid = uid)

/-- The state that brings a view of `base` to one of `current`. Where `base` lists a uid twice, its last
    entity counts. -/
def deltaFrom (base current : GameState) : GameState :=
  let before := EntityView.ofEntities base.entities
  { fromTick := base.toTick
    toTick := current.toTick
    commandAck := current.commandAck
    entities := current.entities.filter fun e => !showsUnchanged before e
    deletions := (base.entities.map (·.uid)).filter fun uid => !current.hasUid uid
    extrapolated := false }

end StateSync.GameState
