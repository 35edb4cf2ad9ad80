import StateSync.Address.Reader
import StateSync.State.Basic

/-! Bytes as text: two digits in base 16 for each, in lower case; either case is read. -/

namespace StateSync.Text

def hexOfByte (b : UInt8) : List Char := [Nat.digitChar (b.toNat / 16), Nat.digitChar (b.toNat % 16)]

def hexOfBytes (bs : Bytes) : String := String.ofList (bs.flatMap hexOfByte)

def bytesOfHex? : List Char → Option Bytes
  | [] => some []
  | [_] => none
  | a :: b :: rest =>
    match Host.digitIn? 16 a, Host.digitIn? 16 b, bytesOfHex? rest with
    | some x, some y, some bs => some (UInt8.ofNat (16 * x + y) :: bs)
    | _, _, _ => none

end StateSync.Text
