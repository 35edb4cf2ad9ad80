import StateSync.Error

/-! The table of message names that the server and its clients share. A name's place in the table is the
    byte that stands for it in frames. Place zero belongs to the message that carries the table itself, so
    that message can be read before the table is known. -/

namespace StateSync

/-- One line of a table as it travels. -/
structure TableEntry where
  id : UInt8
  name : String
  deriving DecidableEq, Repr, Inhabited

structure StringTable where
  names : List String
  /-- A locked table takes no new names. -/
  locked : Bool
  deriving DecidableEq, Repr

namespace StringTable

def bootstrapName : String := "MsgStringTableEntries"

def bootstrapId : UInt8 := 0

/-- As many names as a byte can tell apart. -/
def capacity : Nat := 256

def create : StringTable := ⟨[bootstrapName], false⟩

instance : Inhabited StringTable := ⟨create⟩

def size (t : StringTable) : Nat := t.names.length

def isEmpty (t : StringTable) : Bool := t.names.isEmpty

def get? (t : StringTable) (id : UInt8) : Option String := t.names[id.toNat]?

def find? (t : StringTable) (name : String) : Option UInt8 := (t.names.idxOf? name).map UInt8.ofNat

def lock (t : StringTable) : StringTable := { t with locked := true }

/-- Gives a name the next free place. A name that is there keeps its place. -/
def add (t : StringTable) (name : String) : Except NetError (UInt8 × StringTable) :=
  match t.find? name with
  | some id => .ok (id, t)
  | none =>
    if t.locked then .error (.tableLocked name)
    else if capacity ≤ t.size then .error (.tableFull name)
    else .ok (UInt8.ofNat t.size, { t with names := t.names ++ [name] })

/-- Gives names their places in order, up to the first that gets none. Gives the place of the last one,
    or why there is none. -/
def addAll (t : StringTable) (last : Option UInt8) : List String → Except NetError (Option UInt8) × StringTable
  | [] => (.ok last, t)
  | name :: names =>
    match t.add name with
    | .error e => (.error e, t)
    | .ok (id, t) => t.addAll (some id) names

/-- The lines of names that begin at place `i`. -/
def entriesFrom : Nat → List String → List TableEntry
  | _, [] => []
  | i, name :: names => ⟨UInt8.ofNat i, name⟩ :: entriesFrom (i + 1) names

def entries (t : StringTable) : List TableEntry := entriesFrom 0 t.names

/-! ### Replacement -/

/-- The names of lines that count up from the number of names `seen` before them and repeat none. -/
def collect (seen : List String) : List TableEntry → Except FrameFault (List String)
  | [] => .ok seen
  | e :: es =>
    if e.id.toNat ≠ seen.length then .error .tableGap
    else if e.name ∈ seen then .error .tableDuplicate
    else collect (seen ++ [e.name]) es

/-- The names of a table whose lines came in any order. -/
def namesOf (es : List TableEntry) : Except FrameFault (List String) :=
  match collect [] (es.mergeSort fun a b => a.id ≤ b.id) with
  | .error e => .error e
  | .ok names => if names.head? = some bootstrapName then .ok names else .error .tableBootstrap

/-- Takes over a table received from the server, and locks it. -/
def replace (t : StringTable) (es : List TableEntry) : Except NetError StringTable :=
  match namesOf es with
  | .error e => .error (.malformed e)
  | .ok names => .ok { t with names := names, locked := true }

end StringTable
end StateSync
