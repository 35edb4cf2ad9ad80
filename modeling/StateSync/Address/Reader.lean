import StateSync.Address.Basic

/-! Reading addresses from text. A reader takes characters from the front and gives the value with the
    rest, or nothing; a host may not be followed by anything.

    A version 4 host is four decimal numbers up to 255 without leading zeros, between dots. A version 6
    host is eight groups of one to four digits in base 16, between colons; the last two groups may stand
    as a version 4 host, and one or more groups of zeros may be left out between two colons. -/

namespace StateSync.Host

def digitIn? (base : Nat) (c : Char) : Option Nat :=
  let value :=
    if c.isDigit then some (c.toNat - '0'.toNat)
    else if 'a' ≤ c ∧ c ≤ 'f' then some (c.toNat - 'a'.toNat + 10)
    else if 'A' ≤ c ∧ c ≤ 'F' then some (c.toNat - 'A'.toNat + 10)
    else none
  value.filter (· < base)

def takeDigits (base : Nat) : List Char → List Nat × List Char
  | [] => ([], [])
  | c :: cs =>
    match digitIn? base c with
    | some d => let (ds, rest) := takeDigits base cs; (d :: ds, rest)
    | none => ([], c :: cs)

def numeral (base : Nat) (ds : List Nat) : Nat := ds.foldl (fun n d => base * n + d) 0

/-- A number of one to three decimal digits, up to 255, without a leading zero. -/
def readByte (cs : List Char) : Option (UInt8 × List Char) :=
  match takeDigits 10 cs with
  | ([], _) => none
  | (ds, rest) =>
    if 3 < ds.length ∨ (ds.head? = some 0 ∧ 1 < ds.length) ∨ 255 < numeral 10 ds then none
    else some (UInt8.ofNat (numeral 10 ds), rest)

/-- A group of one to four digits in base 16. -/
def readGroup (cs : List Char) : Option (UInt16 × List Char) :=
  match takeDigits 16 cs with
  | ([], _) => none
  | (ds, rest) => if 4 < ds.length then none else some (UInt16.ofNat (numeral 16 ds), rest)

def readChar (c : Char) : List Char → Option (List Char)
  | [] => none
  | c' :: rest => if c' = c then some rest else none

def read4 (cs : List Char) : Option ((UInt8 × UInt8 × UInt8 × UInt8) × List Char) := do
  let (a, cs) ← readByte cs
  let (b, cs) ← readByte (← readChar '.' cs)
  let (c, cs) ← readByte (← readChar '.' cs)
  let (d, cs) ← readByte (← readChar '.' cs)
  return ((a, b, c, d), cs)

/-- The two groups that a version 4 host fills. -/
def pairGroups (a b c d : UInt8) : List UInt16 :=
  [a.toUInt16 <<< 8 ||| b.toUInt16, c.toUInt16 <<< 8 ||| d.toUInt16]

/-- Groups with colons between them, `room` at the most: how far they go, whether they end in a version 4
    host, and the rest. A group that does not follow ends them. -/
def readGroups (first : Bool) : Nat → List Char → List UInt16 × Bool × List Char
  | 0, cs => ([], false, cs)
  | room + 1, cs =>
    match if first then some cs else readChar ':' cs with
    | none => ([], false, cs)
    | some start =>
      match if 0 < room then read4 start else none with
      | some ((a, b, c, d), rest) => (pairGroups a b c d, true, rest)
      | none =>
        match readGroup start with
        | none => ([], false, cs)
        | some (g, rest) =>
          let (gs, dotted, rest) := readGroups false room rest
          (g :: gs, dotted, rest)

def ofGroups? (gs : List UInt16) : Option Host :=
  if h : gs.toArray.size = 8 then some (.v6 ⟨gs.toArray, h⟩) else none

/-- A version 6 host. What stands before two colons may not end in a version 4 host, and at least one
    group is left out between them. -/
def read6 (cs : List Char) : Option (Host × List Char) := do
  let (front, dotted, rest) := readGroups true 8 cs
  if front.length = 8 then
    return (← ofGroups? front, rest)
  if dotted then none
  let rest ← readChar ':' (← readChar ':' rest)
  let (back, _, rest) := readGroups true (7 - front.length) rest
  let zeros := List.replicate (8 - front.length - back.length) 0
  return (← ofGroups? (front ++ zeros ++ back), rest)

def ofChars? (cs : List Char) : Option Host :=
  match read4 cs with
  | some ((a, b, c, d), []) => some (.v4 a b c d)
  | some _ => none
  | none =>
    match read6 cs with
    | some (h, []) => some h
    | _ => none

end StateSync.Host

namespace StateSync.Address
open Host

/-- A port: decimal digits, whatever zeros they begin with. -/
def readPort (cs : List Char) : Option (UInt16 × List Char) :=
  match takeDigits 10 cs with
  | ([], _) => none
  | (ds, rest) => if 65535 < numeral 10 ds then none else some (UInt16.ofNat (numeral 10 ds), rest)

/-- A host, in brackets if it is of version 6, a colon and a port. -/
def ofChars? (cs : List Char) : Option Address :=
  let parts : Option (Host × List Char) :=
    match read4 cs with
    | some ((a, b, c, d), rest) => some (.v4 a b c d, rest)
    | none => do
      let (h, rest) ← read6 (← readChar '[' cs)
      return (h, ← readChar ']' rest)
  match parts with
  | none => none
  | some (h, rest) =>
    match readChar ':' rest with
    | none => none
    | some rest =>
      match readPort rest with
      | some (p, []) => some ⟨h, p⟩
      | _ => none

end StateSync.Address
