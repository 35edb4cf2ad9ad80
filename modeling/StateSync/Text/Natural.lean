/-! Reading natural numbers from text: an optional plus sign, then decimal digits and nothing else. -/

namespace StateSync.Text

def digit? (c : Char) : Option Nat := if c.isDigit then some (c.toNat - '0'.toNat) else none

/-- The number that the characters write in base ten, after the digits that gave `acc`. -/
def digitsFrom (acc : Nat) : List Char → Option Nat
  | [] => some acc
  | c :: cs => (digit? c).bind fun d => digitsFrom (10 * acc + d) cs

/-- The number written by one or more decimal digits. -/
def digits? : List Char → Option Nat
  | [] => none
  | cs => digitsFrom 0 cs

/-- A number below `bound`, with or without a plus sign. -/
def natural? (bound : Nat) (cs : List Char) : Option Nat :=
  let value := match cs with
    | '+' :: rest => digits? rest
    | _ => digits? cs
  value.filter (· < bound)

end StateSync.Text
