/-!
Lines of text: one spelling of a line's end, and cutting at it.
-/

namespace MonkeyLang.Text

/-- A carriage return, also one before a line feed, counts as a line feed. -/
def unifyNewlines : List Char → List Char
  | [] => []
  | '\r' :: '\n' :: rest => '\n' :: unifyNewlines rest
  | c :: rest => (if c = '\r' then '\n' else c) :: unifyNewlines rest

/-- The lines of a text without their ends. A text that ends a line has no further line. -/
def lines (text : List Char) : List (List Char) :=
  go [] text
where
  go (line : List Char) : List Char → List (List Char)
    | [] => if line.isEmpty then [] else [line.reverse]
    | c :: rest => if c = '\n' then line.reverse :: go [] rest else go (c :: line) rest

end MonkeyLang.Text
