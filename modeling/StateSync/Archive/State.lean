import StateSync.Archive.Writer
import StateSync.Archive.Reader

/-! The archive of a game state. Records, with their sizes: a component is its network id, two free bytes
    and its data (12); an entity is its uid and its components (12); a state is three ticks, its entities,
    its deletions, a flag and three free bytes (32). -/

namespace StateSync.Archive

/-! ### Writing -/

def writeComponent : Write Component := fun p c =>
  let data := writeBytes p c.data
  ⟨data.owned, fun q => leBytes 2 c.netId.toNat ++ [0, 0] ++ data.record (q + 4)⟩

def writeEntity : Write Entity := fun p e =>
  let components := writeList writeComponent 12 4 p e.components
  ⟨components.owned, fun q => leBytes 4 e.uid.toNat ++ components.record (q + 4)⟩

def writeState : Write GameState := fun p s =>
  let entities := writeList writeEntity 12 4 p s.entities
  let deletions := writeList (fun _ uid => writeNumber 4 uid.toNat) 4 4 (p + entities.owned.length) s.deletions
  ⟨entities.owned ++ deletions.owned, fun q =>
    leBytes 4 s.fromTick.toNat ++ leBytes 4 s.toTick.toNat ++ leBytes 4 s.commandAck.toNat ++
    entities.record (q + 12) ++ deletions.record (q + 20) ++ [if s.extrapolated then 1 else 0, 0, 0, 0]⟩

/-! ### Reading -/

def wordAt (bs : Bytes) (p : Nat) : UInt32 := UInt32.ofNat (numberAt bs p 4)

def readComponent : Read Component := fun bs p w =>
  match readBytes bs (p + 4) w with
  | .error e => .error e
  | .ok (data, w) => .ok (⟨UInt16.ofNat (numberAt bs p 2), data⟩, w)

def readEntity : Read Entity := fun bs p w =>
  match readList readComponent 12 4 bs (p + 4) w with
  | .error e => .error e
  | .ok (components, w) => .ok (⟨wordAt bs p, components⟩, w)

def readWord : Read UInt32 := fun bs p w => .ok (wordAt bs p, w)

def readState : Read GameState := fun bs p w =>
  match readList readEntity 12 4 bs (p + 12) w with
  | .error e => .error e
  | .ok (entities, w) =>
    match readList readWord 4 4 bs (p + 20) w with
    | .error e => .error e
    | .ok (deletions, w) =>
      match readFlag bs (p + 28) w with
      | .error e => .error e
      | .ok (extrapolated, w) =>
        .ok (⟨wordAt bs p, wordAt bs (p + 4), wordAt bs (p + 8), entities, deletions, extrapolated⟩, w)

/-! ### Whole archives -/

def encodeState (s : GameState) : Bytes := finish (writeState 0 s)

def decodeState (bs : Bytes) : Except ReadFault GameState := readRoot readState 32 bs

def encodeTick (tick : UInt32) : Bytes := finish (writeNumber 4 tick.toNat)

def decodeTick (bs : Bytes) : Except ReadFault UInt32 := readRoot readWord 4 bs

end StateSync.Archive
