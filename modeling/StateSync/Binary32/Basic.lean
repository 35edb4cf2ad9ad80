/-! Numbers in the binary32 format of IEEE 754, kept as their bits. A finite number is a whole multiple
    of the least positive one, 2⁻¹⁴⁹ (its `units`), so every operation is exact arithmetic on whole
    numbers followed by one rounding, to the nearest and in a tie to the even neighbour. -/

namespace StateSync

structure Binary32 where
  bits : UInt32
  deriving DecidableEq, Repr, Inhabited

namespace Binary32

/-! ### Reading the bits -/

def isNegative (x : Binary32) : Bool := 0x80000000 ≤ x.bits

/-- The bits below the sign. They grow with the size of the number. -/
def magnitude (x : Binary32) : Nat := x.bits.toNat % 0x80000000

/-- The magnitude of the infinities; those above it belong to no number. -/
def infiniteMagnitude : Nat := 0x7f800000

def isNaN (x : Binary32) : Bool := infiniteMagnitude < x.magnitude

def isInfinite (x : Binary32) : Bool := x.magnitude = infiniteMagnitude

def isZero (x : Binary32) : Bool := x.magnitude = 0

/-- The size of a finite number as a multiple of 2⁻¹⁴⁹. -/
def units (x : Binary32) : Nat :=
  let exponent := x.magnitude / 0x800000
  let fraction := x.magnitude % 0x800000
  if exponent = 0 then fraction else (0x800000 + fraction) <<< (exponent - 1)

/-- A finite number as a signed multiple of 2⁻¹⁴⁹. -/
def signedUnits (x : Binary32) : Int := if x.isNegative then -x.units else x.units

/-- The place of a number in the order of numbers; both zeros have place zero. -/
def place (x : Binary32) : Int := if x.isNegative then -x.magnitude else x.magnitude

/-! ### Rounding -/

def ofMagnitude (negative : Bool) (m : Nat) : Binary32 :=
  ⟨UInt32.ofNat (if negative then 0x80000000 + m else m)⟩

def nan : Binary32 := ⟨0x7fc00000⟩

def infinity (negative : Bool) : Binary32 := ofMagnitude negative infiniteMagnitude

def zero (negative : Bool) : Binary32 := ofMagnitude negative 0

/-- The whole number nearest to `n / d`, the even one of two that are as near. -/
def nearest (n d : Nat) : Nat :=
  let q := n / d
  let r := n % d
  if 2 * r < d ∨ (2 * r = d ∧ q % 2 = 0) then q else q + 1

/-- The magnitude nearest to `n / d` units. A number of at least 2²⁴ units has `shift` bits too many for
    its 24 places; those are rounded away, and a carry out of the 24 places lands in the exponent. -/
def roundedMagnitude (n d : Nat) : Nat :=
  let shift := Nat.log2 (n / d) - 23
  min infiniteMagnitude (shift * 0x800000 + nearest n (d <<< shift))

def ofUnits (negative : Bool) (n d : Nat) : Binary32 := ofMagnitude negative (roundedMagnitude n d)

def one : Nat := 1 <<< 149

def ofRatio (negative : Bool) (n d : Nat) : Binary32 := ofUnits negative (n * one) d

def ofNat (n : Nat) : Binary32 := ofRatio false n 1

/-! ### Arithmetic -/

def neg (x : Binary32) : Binary32 := ⟨x.bits ^^^ 0x80000000⟩

def abs (x : Binary32) : Binary32 := ofMagnitude false x.magnitude

/-- A sum that comes to zero is positive, unless both terms are negative zeros. -/
def add (x y : Binary32) : Binary32 :=
  if x.isNaN || y.isNaN then nan
  else if x.isInfinite then (if y.isInfinite && x.isNegative != y.isNegative then nan else x)
  else if y.isInfinite then y
  else
    let sum := x.signedUnits + y.signedUnits
    if sum = 0 then zero (x.isNegative && y.isNegative) else ofUnits (sum < 0) sum.natAbs 1

def mul (x y : Binary32) : Binary32 :=
  let negative := x.isNegative != y.isNegative
  if x.isNaN || y.isNaN || (x.isInfinite && y.isZero) || (x.isZero && y.isInfinite) then nan
  else if x.isInfinite || y.isInfinite then infinity negative
  else ofUnits negative (x.units * y.units) one

def div (x y : Binary32) : Binary32 :=
  let negative := x.isNegative != y.isNegative
  if x.isNaN || y.isNaN || (x.isInfinite && y.isInfinite) || (x.isZero && y.isZero) then nan
  else if x.isInfinite || y.isZero then infinity negative
  else if y.isInfinite then zero negative
  else ofUnits negative (x.units * one) y.units

/-! ### Comparison -/

/-- What is not a number stands in no order to anything. -/
def lt (x y : Binary32) : Bool := !x.isNaN && !y.isNaN && x.place < y.place

def le (x y : Binary32) : Bool := !x.isNaN && !y.isNaN && x.place ≤ y.place

/-- The whole part, cut to the 32-bit words; zero for what is negative or not a number. -/
def toWord (x : Binary32) : Nat :=
  if x.isNaN || x.isNegative then 0
  else if x.isInfinite then 0xffffffff
  else min 0xffffffff (x.units / one)

end Binary32
end StateSync
