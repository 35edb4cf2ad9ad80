import StateSync.Binary32.Basic

/-! Sine and cosine of binary32 angles. A finite number is a whole multiple of 2⁻¹⁴⁹, so the angle is
    exact in fixed point with 320 places after the binary point; it is brought to the nearest multiple of
    a right angle, the remainder goes through the power series, and the result, good to some 180 places
    for every binary32 angle, is rounded once. -/

namespace StateSync.Binary32

/-- Places after the binary point of the fixed-point numbers below. -/
def places : Nat := 320

/-- A one in fixed point. -/
def fixedOne : Nat := 1 <<< places

/-- `arctan (1 / n)` in fixed point, by the alternating series of the odd powers; `power` is the next one. -/
def arctanFrom (n : Nat) (power : Int) (odd : Nat) (positive : Bool) : Nat → Int
  | 0 => 0
  | terms + 1 =>
    let term := power / odd
    (if positive then term else -term) + arctanFrom n (power / (n * n)) (odd + 2) (!positive) terms

def arctanInverse (n : Nat) : Int := arctanFrom n (fixedOne / n) 1 true 80

/-- A right angle in fixed point: `π / 2 = 8 arctan (1/5) - 2 arctan (1/239)`. -/
def rightAngle : Int := 8 * arctanInverse 5 - 2 * arctanInverse 239

/-- A power series in the square of the angle: each term is the one before it times
    `-square / (index * (index + 1))`. -/
def seriesFrom (square term : Int) (index : Nat) : Nat → Int
  | 0 => 0
  | terms + 1 => term + seriesFrom square (-(term * square / fixedOne) / (index * (index + 1))) (index + 2) terms

def smallSine (r : Int) : Int := seriesFrom (r * r / fixedOne) r 2 45

def smallCosine (r : Int) : Int := seriesFrom (r * r / fixedOne) fixedOne 1 45

/-- The sine in fixed point of an angle that is `quarter` right angles ahead of `x`. -/
def shiftedSine (x : Int) (quarter : Int) : Int :=
  let turns := (2 * x + rightAngle) / (2 * rightAngle)
  let r := x - turns * rightAngle
  match (turns + quarter) % 4 with
  | 0 => smallSine r
  | 1 => smallCosine r
  | 2 => -smallSine r
  | _ => -smallCosine r

def ofFixed (v : Int) : Binary32 := ofRatio (v < 0) v.natAbs fixedOne

def toFixed (x : Binary32) : Int := x.signedUnits * (1 <<< (places - 149) : Nat)

def sin (x : Binary32) : Binary32 :=
  if x.isNaN || x.isInfinite then nan
  else if x.isZero then x
  else ofFixed (shiftedSine x.toFixed 0)

def cos (x : Binary32) : Binary32 :=
  if x.isNaN || x.isInfinite then nan else ofFixed (shiftedSine x.toFixed 1)

end StateSync.Binary32
