import StateSync.SortedMap
import StateSync.State.Basic

/-! The buffer between the network and a client's simulation. States arrive late, twice and out of order;
    once per local tick the client asks which of them to apply.

    Until a state has been applied the buffer waits for a full one that enough others follow. From then on
    it applies the newest state, not past the client's tick, that a chain of buffered states leads to from
    the last one applied, unless a full state has come, which takes over at once. -/

namespace StateSync

structure BufferSettings where
  /-- How many states have to follow one another, a full one first, before the first is applied. -/
  minSize : Nat := 3
  maxSize : Nat := 64
  /-- Make up placeholders when the states run out, instead of holding the client's tick back. -/
  extrapolation : Bool := false
  deriving DecidableEq, Repr, Inhabited

structure StateBuffer where
  settings : BufferSettings
  /-- The waiting states, each under the tick it leads to. -/
  held : SortedMap GameState
  lastApplied : Option GameState
  /-- The greatest origin time of the accepted states, in milliseconds. -/
  newestOrigin : Option Nat
  deriving DecidableEq

/-- What a client is to apply for one tick. -/
structure Selection where
  applied : Bool
  current : Option GameState
  /-- The state that follows `current`, to interpolate towards. It stays in the buffer. -/
  next : Option GameState
  /-- The states that lead up to `current`, oldest first, to be applied before it. -/
  catchUp : List GameState
  deriving DecidableEq, Repr

namespace Selection

def nothing : Selection := ⟨false, none, none, []⟩

def chosen (current : GameState) (next : Option GameState) (catchUp : List GameState) : Selection :=
  ⟨true, some current, next, catchUp⟩

def isExtrapolated (s : Selection) : Bool := s.current.any (·.extrapolated)

/-- The states from the server, in the order in which they are to be applied. -/
def received (s : Selection) : List GameState :=
  match s.current with
  | some current => if current.extrapolated then [] else s.catchUp ++ [current]
  | none => []

end Selection

namespace StateBuffer

def create (settings : BufferSettings) : StateBuffer := ⟨settings, SortedMap.empty, none, none⟩

def size (b : StateBuffer) : Nat := b.held.size

def lastTick (b : StateBuffer) : Option UInt32 := b.lastApplied.map (·.toTick)

def isWaiting (b : StateBuffer) : Bool := b.lastApplied.isNone

def setExtrapolation (b : StateBuffer) (on : Bool) : StateBuffer :=
  { b with settings := { b.settings with extrapolation := on } }

def setMinSize (b : StateBuffer) (n : Nat) : StateBuffer :=
  { b with settings := { b.settings with minSize := n } }

def reset (b : StateBuffer) : StateBuffer := create b.settings

/-! ### Arrival -/

/-- A state from the server leads forward and is no placeholder. -/
def isWellFormed (s : GameState) : Bool := !s.extrapolated && s.fromTick < s.toTick

/-- The state is of no more use: its last tick has been applied. -/
def isLate (b : StateBuffer) (s : GameState) : Bool := b.lastTick.any (s.toTick ≤ ·)

/-- Another state for the same tick is held that the state does not improve on: only a full state replaces
    one, and only a delta is replaced. -/
def isSuperseded (b : StateBuffer) (s : GameState) : Bool :=
  (b.held.get? s.toTick).any fun old => old.isFull || !s.isFull

def accepts (b : StateBuffer) (s : GameState) : Bool := isWellFormed s && !b.isLate s && !b.isSuperseded s

/-- Puts a state under its tick and lets go of the lowest ticks beyond the size limit. -/
def hold (b : StateBuffer) (s : GameState) : StateBuffer :=
  { b with held := (b.held.insert s.toTick s).greatest b.settings.maxSize }

/-- Takes in a state that left the server at `origin`, if it is of use. -/
def add (b : StateBuffer) (s : GameState) (origin : Nat) : StateBuffer × Bool :=
  if b.accepts s then
    ({ b.hold s with newestOrigin := some ((b.newestOrigin.getD origin).max origin) }, true)
  else (b, false)

/-! ### Chains -/

/-- The states that follow one another from `tick` on, in a list by ascending `toTick`: each time the
    nearest that leaves no gap. What was passed over leads no further than the one taken, so it cannot
    be needed later. -/
def chainIn (tick : UInt32) : List GameState → List GameState
  | [] => []
  | s :: ss => if s.chainsFrom tick then s :: chainIn s.toTick ss else chainIn tick ss

def chainFrom (b : StateBuffer) (tick : UInt32) : List GameState := chainIn tick b.held.values

/-- The first held state that leads on from `tick`. -/
def following (b : StateBuffer) (tick : UInt32) : Option GameState := b.held.values.find? (·.chainsFrom tick)

def fullStates (b : StateBuffer) : List GameState := b.held.values.reverse.filter (·.isFull)

/-- The newest full state that, itself included, starts a chain of at least the least size. -/
def primer (b : StateBuffer) : Option GameState :=
  b.fullStates.find? fun s => b.settings.minSize ≤ 1 + (b.chainFrom s.toTick).length

/-! ### Selection -/

/-- Applies a state: it becomes the last one applied, and what does not lead past it is dropped. -/
def apply (b : StateBuffer) (s : GameState) : StateBuffer :=
  { b with held := b.held.above s.toTick, lastApplied := some s }

/-- Applies a full state, whatever the client's tick; the tick jumps to it. -/
def applyFull (b : StateBuffer) (s : GameState) : Selection × UInt32 × StateBuffer :=
  (.chosen s none [], s.toTick, b.apply s)

/-- The first selection waits for a full state with enough states behind it. -/
def selectFirst (b : StateBuffer) (clock : UInt32) : Selection × UInt32 × StateBuffer :=
  if b.size < b.settings.minSize then (.nothing, clock, b)
  else
    match b.primer with
    | some s => b.applyFull s
    | none => (.nothing, clock, b)

/-- No chain reaches the client's tick: a placeholder covers the gap, or the client goes back to the last
    tick applied. A client that is not past that tick just waits. -/
def starve (b : StateBuffer) (last clock : UInt32) : Selection × UInt32 × StateBuffer :=
  if clock ≤ last then (.nothing, clock, b)
  else if b.settings.extrapolation then (.chosen (.placeholder last clock) none [], clock, b)
  else (.nothing, last, b)

/-- Applies the last of a chain's states; the ones before it are handed over to catch up with. -/
def applyChain (b : StateBuffer) (clock : UInt32) (chain : List GameState) : Selection × UInt32 × StateBuffer :=
  match chain.getLast? with
  | none => (.nothing, clock, b)
  | some s =>
    let b' := b.apply s
    (.chosen s (b'.following s.toTick) chain.dropLast, clock, b')

/-- The selection once a state has been applied, the last up to tick `last`. -/
def selectNext (b : StateBuffer) (last clock : UInt32) : Selection × UInt32 × StateBuffer :=
  match b.fullStates.head? with
  | some s => b.applyFull s
  | none =>
    let chain := b.chainFrom last
    if chain.getLast?.any (clock ≤ ·.toTick) then b.applyChain clock (chain.takeWhile (·.toTick ≤ clock))
    else b.starve last clock

/-- Picks what the client applies at tick `clock`; gives the selection, the tick the client then holds, and
    the buffer that is left. -/
def select (b : StateBuffer) (clock : UInt32) : Selection × UInt32 × StateBuffer :=
  match b.lastTick with
  | none => b.selectFirst clock
  | some last => b.selectNext last clock

end StateBuffer
end StateSync
