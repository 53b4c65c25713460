import MonkeyLang.Text.Blank
import MonkeyLang.Text.Digit

/-!
Integers in decimal. A numeral of more than `digitLimit` digits is neither read nor written.
-/

namespace MonkeyLang.Numeral

open Text

def digitLimit : Nat := 4300

/-- The separators U+001C to U+001F are blank in text and stand around no numeral. -/
def isMargin (c : Char) : Bool := isBlank c && !(0x1c ≤ c.toNat && c.toNat ≤ 0x1f)

def trimMargins (text : List Char) : List Char :=
  (((text.dropWhile isMargin).reverse).dropWhile isMargin).reverse

/-- The values of a run of digits in which single underscores may stand between two digits. -/
def digits? : List Char → Option (List Nat)
  | [] => none
  | [c] => (digitValue? c).map ([·])
  | c :: '_' :: rest => do
    let digit ← digitValue? c
    let others ← digits? rest
    pure (digit :: others)
  | c :: rest => do
    let digit ← digitValue? c
    let others ← digits? rest
    pure (digit :: others)

def ofDigits (digits : List Nat) : Nat := digits.foldl (fun value digit => 10 * value + digit) 0

def readNat? (text : List Char) : Option Nat := do
  let digits ← digits? text
  if digits.length ≤ digitLimit then pure (ofDigits digits) else none

/-- Reads an integer: margins, at most one sign, digits. Leading zeros count as digits. -/
def read? (text : List Char) : Option Int :=
  match trimMargins text with
  | '+' :: digits => (readNat? digits).map Int.ofNat
  | '-' :: digits => (readNat? digits).map fun n => -(n : Int)
  | digits => (readNat? digits).map Int.ofNat

def isWritable (n : Int) : Bool := n.natAbs < Nat.pow 10 digitLimit

def write (n : Int) : String := toString n

end MonkeyLang.Numeral
