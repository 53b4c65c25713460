/-!
White space: every separator and every control that moves the cursor, also the information
separators U+001C to U+001F and the next-line control U+0085.
-/

namespace MonkeyLang.Text

/-- The blank code points as closed ranges in ascending order. -/
def blankRanges : List (Nat × Nat) := [
  (0x09, 0x0d), (0x1c, 0x20), (0x85, 0x85), (0xa0, 0xa0), (0x1680, 0x1680), (0x2000, 0x200a),
  (0x2028, 0x2029), (0x202f, 0x202f), (0x205f, 0x205f), (0x3000, 0x3000)]

def isBlank (c : Char) : Bool :=
  blankRanges.any fun range => range.1 ≤ c.toNat && c.toNat ≤ range.2

def trimLeft (text : List Char) : List Char := text.dropWhile isBlank

def trimRight (text : List Char) : List Char := (text.reverse.dropWhile isBlank).reverse

def trim (text : List Char) : List Char := trimRight (trimLeft text)

end MonkeyLang.Text
