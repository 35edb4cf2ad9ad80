import StateSync.Binary32.Basic

/-! Simulated trouble on a transport: packets that are lost and packets that are late. Chance is an input:
    a roll is one of ten thousand equally likely values. -/

namespace StateSync

abbrev Roll := Fin 10000

structure Luck where
  loss : Roll
  jitter : Roll
  latency : Roll
  deriving DecidableEq, Repr, Inhabited

/-- Loss in percent and latencies in milliseconds. -/
structure Impairment where
  enabled : Bool
  loss : Binary32
  minLatency : Nat
  maxLatency : Nat
  jitter : Nat
  deriving DecidableEq, Repr, Inhabited

namespace Impairment

def off : Impairment := ⟨false, ⟨0⟩, 0, 0, 0⟩

/-- The part of one that a roll stands for. -/
def share (r : Roll) : Binary32 := (Binary32.ofNat r.val).div (Binary32.ofNat 10000)

/-- The part of a whole number that a roll stands for, cut to a whole number. -/
def portion (r : Roll) (n : Nat) : Nat := ((share r).mul (Binary32.ofNat n)).toWord

/-- Whether an unreliable packet with this roll is lost. -/
def drops (i : Impairment) (r : Roll) : Bool :=
  i.enabled && !i.loss.le ⟨0⟩ && ((share r).mul (Binary32.ofNat 100)).lt i.loss

/-- How late a packet should be, in milliseconds. Without a greatest latency none is late. -/
def lateness (i : Impairment) (luck : Luck) : Nat :=
  if !i.enabled || i.maxLatency = 0 then 0
  else i.minLatency + portion luck.latency (i.maxLatency - i.minLatency) + portion luck.jitter i.jitter

/-- Whether that is too late for the 32 bits in which it is summed up. -/
def runsOver (i : Impairment) (luck : Luck) : Bool := UInt32.size ≤ i.lateness luck

/-- How late a packet is. A sum that runs over its 32 bits starts again from zero. -/
def delay (i : Impairment) (luck : Luck) : Nat := i.lateness luck % UInt32.size

end Impairment
end StateSync
