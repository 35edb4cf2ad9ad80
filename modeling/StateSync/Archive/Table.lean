import StateSync.Archive.Writer
import StateSync.Archive.Reader
import StateSync.StringTable

/-! The archive of a name table: a list of lines. The record of a line is its id, three free bytes and its
    name (12). -/

namespace StateSync.Archive

def writeEntry : Write TableEntry := fun p e =>
  let name := writeText p e.name
  ⟨name.owned, fun q => [e.id, 0, 0, 0] ++ name.record (q + 4)⟩

def readEntry : Read TableEntry := fun bs p w =>
  match readText bs (p + 4) w with
  | .error e => .error e
  | .ok (name, w) => .ok (⟨UInt8.ofNat (numberAt bs p 1), name⟩, w)

def encodeEntries (es : List TableEntry) : Bytes := finish (writeList writeEntry 12 4 0 es)

def decodeEntries (bs : Bytes) : Except ReadFault (List TableEntry) := readRoot (readList readEntry 12 4) 8 bs

end StateSync.Archive
