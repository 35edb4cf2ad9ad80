/-! How a packet is to be delivered, and the groups of messages. The group of a message alone decides its
    delivery. -/

namespace StateSync

inductive Delivery where
  /-- May be lost. -/
  | unreliable
  /-- Arrives, in any order. -/
  | unordered
  /-- Arrives after what was sent before it in this way. -/
  | ordered
  deriving DecidableEq, Repr, Inhabited

def Delivery.isReliable (d : Delivery) : Bool := d ≠ .unreliable

def Delivery.isOrdered (d : Delivery) : Bool := d = .ordered

inductive MessageGroup where
  | core
  | string
  | command
  | entityEvent
  /-- State that the next message of its kind outdates. -/
  | entity
  deriving DecidableEq, Repr, Inhabited

def MessageGroup.delivery : MessageGroup → Delivery
  | .entity => .unreliable
  | .core | .string | .command | .entityEvent => .unordered

end StateSync
