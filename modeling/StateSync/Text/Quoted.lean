import StateSync.Text.Unicode

/-! Quoted text, as error messages show what was typed: between double quotes, with what cannot be seen
    or would be misread written as an escape. -/

namespace StateSync.Text

/-- The digits of `n` in base 16, in lower case. -/
def hexDigits (n : Nat) : List Char := Nat.toDigits 16 n

/-- How one character stands in quoted text. A quote, a backslash and the usual control characters
    have short escapes; a mark that would hang on the character before it, and what has no shape, is
    given by its code point. -/
def quotedChar (c : Char) : List Char :=
  if c = '"' then ['\\', '"']
  else if c = '\\' then ['\\', '\\']
  else if c = '\n' then ['\\', 'n']
  else if c = '\r' then ['\\', 'r']
  else if c = '\t' then ['\\', 't']
  else if c = Char.ofNat 0 then ['\\', '0']
  else if isExtending c || (isShapeless c && c ≠ ' ') then
    ['\\', 'u', Char.ofNat 0x7b] ++ hexDigits c.toNat ++ [Char.ofNat 0x7d]
  else [c]

def quoted (s : String) : String := String.ofList ('"' :: (s.toList.flatMap quotedChar ++ ['"']))

end StateSync.Text
