/-! Network addresses: a host, by a version 4 or version 6 internet address, and a port. The text of a
    version 6 address leaves out the first of its longest runs of two or more zero groups. -/

namespace StateSync

/-- An internet address: four bytes, or eight groups of sixteen bits. -/
inductive Host where
  | v4 (a b c d : UInt8)
  | v6 (groups : Vector UInt16 8)
  deriving DecidableEq, Repr

structure Address where
  host : Host
  port : UInt16
  deriving DecidableEq, Repr

namespace Host

/-- The address by which a machine reaches itself. -/
def loopback : Host := v4 127 0 0 1

instance : Inhabited Host := ⟨loopback⟩

def dotted (a b c d : UInt8) : String := s!"{a.toNat}.{b.toNat}.{c.toNat}.{d.toNat}"

/-- A group in base 16, in lower case and without leading zeros. -/
def groupText (g : UInt16) : String := String.ofList (Nat.toDigits 16 g.toNat)

def groupsText (gs : List UInt16) : String := String.intercalate ":" (gs.map groupText)

def leadingZeros (gs : List UInt16) : Nat := (gs.takeWhile (· = 0)).length

/-- The start and length of the longest run of zeros from place `i` on, the first of runs of one length. -/
def longestRun (i : Nat) : List UInt16 → Nat × Nat
  | [] => (i, 0)
  | g :: gs =>
    let here := leadingZeros (g :: gs)
    let later := longestRun (i + 1) gs
    if later.2 ≤ here then (i, here) else later

/-- The text of eight groups. Version 4 addresses that are mapped into version 6 keep their dots. -/
def text6 (gs : List UInt16) : String :=
  match gs with
  | [0, 0, 0, 0, 0, 0xffff, x, y] => "::ffff:" ++ dotted (x >>> 8).toUInt8 x.toUInt8 (y >>> 8).toUInt8 y.toUInt8
  | _ =>
    let run := longestRun 0 gs
    if 1 < run.2 then groupsText (gs.take run.1) ++ "::" ++ groupsText (gs.drop (run.1 + run.2)) else groupsText gs

def text : Host → String
  | v4 a b c d => dotted a b c d
  | v6 groups => text6 groups.toList

instance : ToString Host := ⟨text⟩

end Host

namespace Address

instance : Inhabited Address := ⟨⟨Host.loopback, 0⟩⟩

def text (a : Address) : String :=
  match a.host with
  | .v4 .. => s!"{a.host.text}:{a.port.toNat}"
  | .v6 _ => s!"[{a.host.text}]:{a.port.toNat}"

instance : ToString Address := ⟨text⟩

end Address
end StateSync
