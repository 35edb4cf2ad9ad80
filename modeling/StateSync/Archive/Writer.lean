import StateSync.Archive.Word

/-! Writing archives. A value has a record of fixed size; what does not fit into it (the items of a list,
    a long text) is written in front, and the record points to it by the distance from the pointer. A
    record can therefore be written only when its own position is known, and is kept as a function of it.

    A list writes first what its items own, item by item, then, after zeros up to the alignment, the
    records of its items; its own record is the pointer to them and their number. -/

namespace StateSync.Archive

abbrev Record := Nat → Bytes

/-- A value laid out from a position on: the bytes that go in front of its record, and the record. -/
structure Layout where
  owned : Bytes
  record : Record

/-- How values of `α` are laid out, by the position at which the bytes they own begin. -/
abbrev Write (α : Type) := Nat → α → Layout

/-- The zeros from `p` up to the next multiple of `align`. -/
def padding (align p : Nat) : Bytes := List.replicate ((align - p % align) % align) 0

/-- A number that fills its record. -/
def writeNumber (width n : Nat) : Layout := ⟨[], fun _ => leBytes width n⟩

/-- The distance from a pointer to what it points to. -/
def pointer (pointerAt target : Nat) : Bytes := offsetBytes ((target : Int) - pointerAt)

/-- What the items of a list own, one after another from `p`, and their records. -/
def writeItems (item : Write α) (p : Nat) : List α → Bytes × List Record
  | [] => ([], [])
  | x :: xs =>
    let l := item p x
    let (owned, records) := writeItems item (p + l.owned.length) xs
    (l.owned ++ owned, l.record :: records)

/-- Records of one size, one after another from `p`. -/
def placeRecords (size p : Nat) : List Record → Bytes
  | [] => []
  | r :: rs => r p ++ placeRecords size (p + size) rs

def writeList (item : Write α) (size align : Nat) : Write (List α) := fun p xs =>
  let (owned, records) := writeItems item p xs
  let pad := padding align (p + owned.length)
  let start := p + owned.length + pad.length
  ⟨owned ++ pad ++ placeRecords size start records, fun q => pointer q start ++ leBytes 4 xs.length⟩

def writeBytes : Write Bytes := fun p bs => ⟨bs, fun q => pointer q p ++ leBytes 4 bs.length⟩

/-- The longest text that stands in its own record. -/
def inlineLength : Nat := 8

/-- The length of a text outside its record: the low six bits, a mark in the two bits above them that no
    text begins with, then the rest. -/
def textLength (n : Nat) : Nat := n % 64 + 128 + n / 64 * 256

/-- A text: in its record, filled up with bytes that occur in no text, or outside. -/
def writeText : Write String := fun p s =>
  let bs := s.toUTF8.toList
  if bs.length ≤ inlineLength then ⟨[], fun _ => bs ++ List.replicate (inlineLength - bs.length) 0xff⟩
  else ⟨bs, fun q => leBytes 4 (textLength bs.length) ++ pointer q p⟩

/-- A whole archive: what the value owns, and its record last. -/
def finish (l : Layout) : Bytes :=
  let pad := padding 4 l.owned.length
  l.owned ++ pad ++ l.record (l.owned.length + pad.length)

end StateSync.Archive
