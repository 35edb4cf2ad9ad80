/-! User names and the session names made from them. A user name has 1 to 32 characters, all of them ASCII
    letters, digits or underscores. A name that is taken gets a number behind it. -/

namespace StateSync

inductive UsernameFault where
  | empty
  | tooLong
  | illegalCharacters
  deriving DecidableEq, Repr, Inhabited

def UsernameFault.message : UsernameFault → String
  | empty => "empty"
  | tooLong => "too long"
  | illegalCharacters => "illegal characters"

namespace Username

def maxLength : Nat := 32

def isNameChar (c : Char) : Bool := c.isAlphanum || c = '_'

def fault? (name : String) : Option UsernameFault :=
  if name.isEmpty then some .empty
  else if maxLength < name.length then some .tooLong
  else if name.toList.all isNameChar then none
  else some .illegalCharacters

def IsValid (name : String) : Prop := fault? name = none

end Username

namespace SessionName

def numbered (requested : String) (n : Nat) : String := requested ++ "_" ++ toString n

/-- The first of the `tries` numbered names from `n` on that is free. -/
def firstFree (requested : String) (taken : List String) (n : Nat) : Nat → Option String
  | 0 => none
  | tries + 1 =>
    if numbered requested n ∈ taken then firstFree requested taken (n + 1) tries
    else some (numbered requested n)

/-- The requested name, or the first free one of `name_2`, `name_3`, …. Of one more of these than there are
    names taken, one is free. -/
def resolve (requested : String) (taken : List String) : String :=
  if requested ∈ taken then (firstFree requested taken 2 (taken.length + 1)).getD requested else requested

end SessionName
end StateSync
