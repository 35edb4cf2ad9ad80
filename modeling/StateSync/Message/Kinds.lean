import StateSync.Archive.State
import StateSync.Archive.Table
import StateSync.Message.Basic

/-! The kinds of messages: the name table, snapshots and their acknowledgements, whose payloads are
    archives; and two kinds of the application, a line of chat and a ping. -/

namespace StateSync.MessageType

/-- Archives point by signed 32-bit distances, and the length of a text has 30 bits. -/
def checkedLength (texts : List String) (archive : Bytes) : Except NetError Bytes :=
  if archive.length < 0x80000000 ∧ ∀ s ∈ texts, s.utf8ByteSize < 0x40000000 then .ok archive
  else .error (.encode .tooLong)

def archived {α : Type} (r : Except Archive.ReadFault α) : Except NetError α :=
  match r with
  | .ok x => .ok x
  | .error e => .error (.decode e)

/-- The whole name table, sent by the server once per channel. -/
def stringTable : MessageType (List TableEntry) where
  name := StringTable.bootstrapName
  group := .string
  encode es := checkedLength (es.map (·.name)) (Archive.encodeEntries es)
  decode bs := archived (Archive.decodeEntries bs)

def state : MessageType GameState where
  name := "MsgState"
  group := .entity
  encode s := checkedLength [] (Archive.encodeState s)
  decode bs := archived (Archive.decodeState bs)

/-- The last tick a client has applied, which the server may build deltas on. -/
def stateAck : MessageType UInt32 where
  name := "MsgStateAck"
  group := .entity
  encode tick := .ok (Archive.encodeTick tick)
  decode bs := archived (Archive.decodeTick bs)

/-- A line of text. It travels as it is and may not contain NUL. -/
def chat : MessageType String where
  name := "MsgChat"
  group := .command
  encode text :=
    if text.toList.contains (Char.ofNat 0) then .error (.malformed (.contents "chat contains NUL"))
    else .ok text.toUTF8.toList
  decode bs :=
    match String.fromUTF8? ⟨bs.toArray⟩ with
    | some text => .ok text
    | none => .error (.malformed (.contents "chat is not UTF-8"))

def ping : MessageType Unit where
  name := "MsgPing"
  group := .core
  encode _ := .ok []
  decode bs := if bs.isEmpty then .ok () else .error (.malformed (.contents "ping has a payload"))

end StateSync.MessageType
