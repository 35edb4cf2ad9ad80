import StateSync.SortedMap
import StateSync.State.Basic

/-! The entities a client knows, by uid, and how a state is folded into them. -/

namespace StateSync

abbrev EntityView := SortedMap Entity

namespace EntityView

/-- Adds entities in order, over those of the same uid. -/
def insertAll (v : EntityView) (es : List Entity) : EntityView := es.foldl (fun v e => v.insert e.uid e) v

def eraseAll (v : EntityView) (uids : List UInt32) : EntityView := uids.foldl (fun v uid => v.erase uid) v

def ofEntities (es : List Entity) : EntityView := insertAll SortedMap.empty es

end EntityView

/-- Folds a state into a view: a full state starts from nothing, and deletions come last. A placeholder
    changes nothing. -/
def GameState.applyTo (s : GameState) (v : EntityView) : EntityView :=
  if s.extrapolated then v
  else
    let start : EntityView := if s.isFull then .empty else v
    (start.insertAll s.entities).eraseAll s.deletions

end StateSync
