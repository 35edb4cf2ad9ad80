import StateSync.Text.Unicode

/-! Trimming white space from both ends of a text. -/

namespace StateSync.Text

def trimmed (cs : List Char) : List Char :=
  ((cs.dropWhile isBlank).reverse.dropWhile isBlank).reverse

end StateSync.Text
