import StateSync.Binary32.Basic

/-! Binary32 numbers as decimals with a fixed number of places, rounded once from the exact value. -/

namespace StateSync.Binary32

/-- A whole number of units of the last place as a decimal with `places` places. -/
def placesText (places n : Nat) : String :=
  let digits := (Nat.toDigits 10 n)
  let padded := List.replicate (places + 1 - digits.length) '0' ++ digits
  let whole := padded.take (padded.length - places)
  if places = 0 then String.ofList whole else String.ofList (whole ++ '.' :: padded.drop whole.length)

def fixedText (places : Nat) (x : Binary32) : String :=
  let sign := if x.isNegative then "-" else ""
  if x.isNaN then "NaN"
  else if x.isInfinite then sign ++ "inf"
  else sign ++ placesText places (nearest (x.units * Nat.pow 10 places) one)

end StateSync.Binary32
