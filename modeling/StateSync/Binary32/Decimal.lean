import StateSync.Binary32.Basic
import StateSync.Text.Natural

/-! Reading binary32 numbers from decimal text: an optional sign, then `inf`, `infinity` or `nan` in any
    case, or digits with an optional point and an optional exponent. The value is rounded once, from the
    exact decimal. -/

namespace StateSync.Binary32

/-- The digits of a decimal number without its point, and the power of ten they are to be scaled by. -/
structure Decimal where
  digits : Nat
  scale : Int
  deriving DecidableEq, Repr

/-- How many decimal digits `n` has; none for zero. -/
def digitCount (n : Nat) : Nat := if n = 0 then 0 else (Nat.toDigits 10 n).length

/-- The nearest number to a decimal. A decimal of forty digits or more before the point is beyond the
    range, and one that starts with fifty zeros after it is below half of the least positive number,
    so the scale that is computed with stays small. -/
def Decimal.round (negative : Bool) (d : Decimal) : Binary32 :=
  let top : Int := digitCount d.digits + d.scale
  if d.digits = 0 ∨ top < -50 then zero negative
  else if 40 < top then infinity negative
  else if 0 ≤ d.scale then ofRatio negative (d.digits * Nat.pow 10 d.scale.toNat) 1
  else ofRatio negative d.digits (Nat.pow 10 (-d.scale).toNat)

def spanDigits (cs : List Char) : List Char × List Char := cs.span (·.isDigit)

/-- An exponent: nothing, or the letter, an optional sign and one or more digits up to the end. -/
def exponent? : List Char → Option Int
  | [] => some 0
  | c :: cs =>
    if c = 'e' ∨ c = 'E' then
      match cs with
      | '-' :: ds => (Text.digits? ds).map fun n => -(n : Int)
      | '+' :: ds => (Text.digits? ds).map fun n => (n : Int)
      | ds => (Text.digits? ds).map fun n => (n : Int)
    else none

/-- A decimal number without a sign. A digit must stand before or after the point. -/
def decimal? (cs : List Char) : Option Decimal :=
  let (whole, rest) := spanDigits cs
  let (fraction, rest) := match rest with
    | '.' :: more => spanDigits more
    | _ => ([], rest)
  match Text.digits? (whole ++ fraction), exponent? rest with
  | some n, some e => some ⟨n, e - fraction.length⟩
  | _, _ => none

/-- The names of what decimals cannot write, in any case. -/
def named? (negative : Bool) (cs : List Char) : Option Binary32 :=
  let name := String.ofList (cs.map Char.toLower)
  if name = "inf" ∨ name = "infinity" then some (infinity negative)
  else if name = "nan" then some (if negative then nan.neg else nan)
  else none

def unsigned? (negative : Bool) (cs : List Char) : Option Binary32 :=
  match decimal? cs with
  | some d => some (d.round negative)
  | none => named? negative cs

def ofChars? : List Char → Option Binary32
  | '-' :: cs => unsigned? true cs
  | '+' :: cs => unsigned? false cs
  | cs => unsigned? false cs

end StateSync.Binary32
