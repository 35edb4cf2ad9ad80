import StateSync.Binary32.Basic

/-! A fixed time step: frame times of any length go in, whole simulation ticks come out, and what is left
    over waits for the next frame. Times are whole nanoseconds. -/

namespace StateSync

def second : Nat := 1000000000

/-- The longest frame that counts, a quarter of a second, so that a stall is not made up for. -/
def longestFrame : Nat := 250000000

structure Timestep where
  rate : Nat
  accumulated : Nat
  deriving DecidableEq, Repr, Inhabited

namespace Timestep

/-- A time step of `rate` ticks per second, at least one. -/
def create (rate : Nat) : Timestep := ⟨max rate 1, 0⟩

/-- The length of a tick, cut to whole nanoseconds. Above a billion ticks per second it is zero. -/
def length (t : Timestep) : Nat := second / t.rate

def accumulate (t : Timestep) (frame : Nat) : Timestep :=
  { t with accumulated := t.accumulated + min frame longestFrame }

/-- Takes one tick, if it is due. -/
def consume? (t : Timestep) : Option Timestep :=
  if t.length ≤ t.accumulated then some { t with accumulated := t.accumulated - t.length } else none

/-- The number of ticks that are due. Ticks of length zero never run out; then none is counted. -/
def due (t : Timestep) : Nat := t.accumulated / t.length

/-- Adds a frame and takes all ticks that are then due. They are counted in 32 bits: a count that runs over starts
    again from zero. A build that checks its sums stops there instead. -/
def advance (t : Timestep) (frame : Nat) : Nat × Timestep :=
  let t := t.accumulate frame
  (t.due % UInt32.size, { t with accumulated := t.accumulated - t.due * t.length })

def reset (t : Timestep) : Timestep := { t with accumulated := 0 }

/-- A time in seconds, each step rounded to binary32. -/
def seconds (time : Nat) : Binary32 :=
  (Binary32.ofNat (time / second)).add ((Binary32.ofNat (time % second)).div (Binary32.ofNat second))

/-- The part of the next tick that has passed. -/
def alpha (t : Timestep) : Binary32 := (seconds t.accumulated).div (seconds t.length)

end Timestep
end StateSync
