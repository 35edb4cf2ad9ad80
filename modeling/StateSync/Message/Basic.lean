import StateSync.Delivery
import StateSync.Error

/-! Kinds of messages. A kind has a name that is the same at both ends of a connection, a group, and a
    codec. A message travels in a frame: one byte that stands for the name, then its payload. -/

namespace StateSync

structure MessageType (α : Type) where
  name : String
  group : MessageGroup
  encode : α → Except NetError Bytes
  /-- Reads a payload that need not come from `encode`. -/
  decode : Bytes → Except NetError α

namespace MessageType

def delivery {α : Type} (t : MessageType α) : Delivery := t.group.delivery

/-- What is encoded is read back. -/
def RoundTrips {α : Type} (t : MessageType α) : Prop := ∀ x bs, t.encode x = .ok bs → t.decode bs = .ok x

end MessageType

namespace Frame

/-- A payload behind the byte that stands for its kind. -/
def encode (id : UInt8) (payload : Bytes) : Bytes := id :: payload

def split? : Bytes → Except NetError (UInt8 × Bytes)
  | [] => .error (.malformed .emptyFrame)
  | id :: payload => .ok (id, payload)

theorem split?_encode (id : UInt8) (payload : Bytes) : split? (encode id payload) = .ok (id, payload) := rfl

end Frame
end StateSync
