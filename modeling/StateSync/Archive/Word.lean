import StateSync.State.Basic

/-! Whole numbers as bytes, least significant first. -/

namespace StateSync.Archive

def leBytes : Nat → Nat → Bytes
  | 0, _ => []
  | width + 1, n => UInt8.ofNat n :: leBytes width (n / 256)

def ofLeBytes : Bytes → Nat
  | [] => 0
  | b :: bs => b.toNat + 256 * ofLeBytes bs

@[simp] theorem length_leBytes : ∀ width n : Nat, (leBytes width n).length = width
  | 0, _ => rfl
  | width + 1, n => by simp [leBytes, length_leBytes width (n / 256)]

theorem ofLeBytes_leBytes : ∀ width n : Nat, ofLeBytes (leBytes width n) = n % Nat.pow 256 width
  | 0, n => by simp [leBytes, ofLeBytes, Nat.mod_one]
  | width + 1, n => by
    have hb : (UInt8.ofNat n).toNat = n % 256 := by simp
    have hpow : Nat.pow 256 (width + 1) = 256 * Nat.pow 256 width := Nat.mul_comm _ _
    rw [leBytes, ofLeBytes, hb, ofLeBytes_leBytes width (n / 256), hpow, Nat.mod_mul]

/-- A difference of positions, as 32 bits in two's complement. -/
def offsetBytes (d : Int) : Bytes := leBytes 4 (d % 0x100000000).toNat

/-- The difference that 32 bits write in two's complement. -/
def ofOffsetBytes (bs : Bytes) : Int :=
  let n := ofLeBytes bs
  if n < 0x80000000 then n else n - 0x100000000

theorem ofOffsetBytes_offsetBytes {d : Int} (hl : -0x80000000 ≤ d) (hu : d < 0x80000000) :
    ofOffsetBytes (offsetBytes d) = d := by
  simp only [ofOffsetBytes, offsetBytes, ofLeBytes_leBytes]
  have h : (d % 0x100000000).toNat % Nat.pow 256 4 = (d % 0x100000000).toNat :=
    Nat.mod_eq_of_lt (show _ < 0x100000000 by omega)
  rw [h]
  by_cases hd : 0 ≤ d
  · rw [if_pos (by omega)]
    omega
  · rw [if_neg (by omega)]
    omega

def slice (bs : Bytes) (p n : Nat) : Bytes := (bs.drop p).take n

end StateSync.Archive
