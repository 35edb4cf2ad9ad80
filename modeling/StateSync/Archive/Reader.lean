import StateSync.Archive.Word
import StateSync.Archive.Writer

/-! Reading archives that may have been tampered with. No byte may belong to two objects, and an object
    stands behind all that it points to. Both are checked with a window of free positions. Entering an
    object closes the window above it for what it points to; leaving it, everything up to its end is used
    up. Objects are visited in the order in which they are written, so an archive passes. -/

namespace StateSync.Archive

/-- Why bytes are no archive of a value. -/
inductive ReadFault where
  /-- An object lies outside the positions that are still free. -/
  | outside
  | misaligned
  | badFlag
  | badText
  /-- A text outside its record is short enough to stand in it. -/
  | shortText
  deriving DecidableEq, Repr, Inhabited

/-- The free positions, from `lo` up to but not including `hi`. -/
structure Window where
  lo : Nat
  hi : Nat
  deriving DecidableEq, Repr

/-- An object that has been entered: where it starts, the window for what it points to, and the window
    that is left after it. -/
structure Entered where
  start : Nat
  inner : Window
  after : Window
  deriving DecidableEq, Repr

def Window.enter (w : Window) (p : Int) (size align : Nat) : Except ReadFault Entered :=
  if p < w.lo ∨ w.hi < p + size then .error .outside
  else if p.toNat % align ≠ 0 then .error .misaligned
  else .ok ⟨p.toNat, ⟨w.lo, p.toNat⟩, ⟨p.toNat + size, w.hi⟩⟩

/-- Reads a value from its record at a position of the archive, in the window for what it points to. Gives
    the window that is left. -/
abbrev Read (α : Type) := Bytes → Nat → Window → Except ReadFault (α × Window)

def numberAt (bs : Bytes) (p width : Nat) : Nat := ofLeBytes (slice bs p width)

def targetAt (bs : Bytes) (p : Nat) : Int := p + ofOffsetBytes (slice bs p 4)

def readItems (item : Read α) (size : Nat) (bs : Bytes) : Nat → Nat → Window → Except ReadFault (List α × Window)
  | 0, _, w => .ok ([], w)
  | count + 1, p, w =>
    match item bs p w with
    | .error e => .error e
    | .ok (x, w) =>
      match readItems item size bs count (p + size) w with
      | .error e => .error e
      | .ok (xs, w) => .ok (x :: xs, w)

def readList (item : Read α) (size align : Nat) : Read (List α) := fun bs p w =>
  let count := numberAt bs (p + 4) 4
  match w.enter (targetAt bs p) (count * size) align with
  | .error e => .error e
  | .ok entered =>
    match readItems item size bs count entered.start entered.inner with
    | .error e => .error e
    | .ok (xs, _) => .ok (xs, entered.after)

def readBytes : Read Bytes := fun bs p w =>
  let count := numberAt bs (p + 4) 4
  match w.enter (targetAt bs p) count 1 with
  | .error e => .error e
  | .ok entered => .ok (slice bs entered.start count, entered.after)

def textOf (bs : Bytes) : Except ReadFault String :=
  match String.fromUTF8? ⟨bs.toArray⟩ with
  | some s => .ok s
  | none => .error .badText

/-- Reads a text. The mark in the first byte tells a text outside the record. -/
def readText : Read String := fun bs p w =>
  let record := slice bs p inlineLength
  if record.head?.any (·.toNat / 64 = 2) then
    let n := ofLeBytes (record.take 4)
    let count := n % 64 + n / 256 * 64
    if count ≤ inlineLength then .error .shortText
    else
      match w.enter (p + ofOffsetBytes (record.drop 4)) count 1 with
      | .error e => .error e
      | .ok entered =>
        match textOf (slice bs entered.start count) with
        | .error e => .error e
        | .ok s => .ok (s, entered.after)
  else
    match textOf (record.takeWhile (· ≠ 0xff)) with
    | .error e => .error e
    | .ok s => .ok (s, w)

def readFlag : Read Bool := fun bs p w =>
  match numberAt bs p 1 with
  | 0 => .ok (false, w)
  | 1 => .ok (true, w)
  | _ => .error .badFlag

/-- Reads a whole archive, whose record of `size` bytes stands at its end. -/
def readRoot (root : Read α) (size : Nat) (bs : Bytes) : Except ReadFault α :=
  match (Window.mk 0 bs.length).enter (bs.length - size : Nat) size 4 with
  | .error e => .error e
  | .ok entered =>
    match root bs entered.start entered.inner with
    | .error e => .error e
    | .ok (x, _) => .ok x

end StateSync.Archive
