import StateSync.Assoc
import StateSync.Message.Basic
import StateSync.StringTable

/-! The kinds of messages that one side knows. A kind may have a handler, which reads a payload and gives
    what the application receives, a value of `δ`. -/

namespace StateSync

structure Registration (δ : Type) where
  group : MessageGroup
  handler : Option (Bytes → Except NetError δ)

structure Registry (δ : Type) where
  kinds : Assoc String (Registration δ)

namespace Registry
variable {δ : Type}

/-- The registry of a side that knows only the name table. -/
def create : Registry δ := ⟨Assoc.empty.insert StringTable.bootstrapName ⟨.string, none⟩⟩

instance : Inhabited (Registry δ) := ⟨create⟩

def isRegistered (r : Registry δ) (name : String) : Bool := r.kinds.contains name

def group? (r : Registry δ) (name : String) : Option MessageGroup := (r.kinds.get? name).map (·.group)

def names (r : Registry δ) : List String := r.kinds.keys

/-- The handler of a kind: what is decoded is handed on in the form the application wants. -/
def handlerOf {α : Type} (t : MessageType α) (receive : α → δ) (payload : Bytes) : Except NetError δ :=
  match t.decode payload with
  | .ok x => .ok (receive x)
  | .error e => .error e

/-- Adds a kind under its name, once. Without `receive` it can be sent but is dropped when it comes in. -/
def register {α : Type} (r : Registry δ) (t : MessageType α) (receive : Option (α → δ)) :
    Except NetError (Registry δ) :=
  if r.isRegistered t.name then .error (.duplicateMessage t.name)
  else .ok ⟨r.kinds.insert t.name ⟨t.group, receive.map (handlerOf t)⟩⟩

def dispatch (r : Registry δ) (name : String) (payload : Bytes) : Except NetError δ :=
  match r.kinds.get? name with
  | none => .error (.unregisteredMessage name)
  | some k =>
    match k.handler with
    | none => .error (.noHandler name)
    | some handle => handle payload

end Registry
end StateSync
