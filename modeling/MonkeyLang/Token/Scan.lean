import MonkeyLang.Token

/-!
Reading tokens from text. A token is the longest one that starts where the layout before it ends;
`Token.next` leaves a shorter text unless nothing but layout was left (`next_shortens`).
-/

namespace MonkeyLang.Token

def isLayout (c : Char) : Bool := c = ' ' || c = '\t' || c = '\n' || c = '\r'

def isLetter (c : Char) : Bool :=
  ('a' ≤ c && c ≤ 'z') || ('A' ≤ c && c ≤ 'Z') || c = '_'

def isDigit (c : Char) : Bool := '0' ≤ c && c ≤ '9'

def symbolKind? : Char → Option Kind
  | '=' => some .assign
  | '+' => some .plus
  | '-' => some .minus
  | '!' => some .bang
  | '*' => some .asterisk
  | '/' => some .slash
  | '<' => some .less
  | '>' => some .greater
  | ',' => some .comma
  | ';' => some .semicolon
  | '(' => some .openParen
  | ')' => some .closeParen
  | '{' => some .openBrace
  | '}' => some .closeBrace
  | _ => none

/-- The operators of two characters end in an equals sign. -/
def pairKind? (c : Char) (rest : List Char) : Option Kind :=
  if rest.head? = some '=' then
    if c = '=' then some .equal else if c = '!' then some .unequal else none
  else none

/-- Reads the token that starts with `c`. -/
def read (c : Char) (rest : List Char) : Token × List Char :=
  match pairKind? c rest with
  | some kind => (⟨kind, String.ofList [c, '=']⟩, rest.tail)
  | none =>
    match symbolKind? c with
    | some kind => (⟨kind, String.ofList [c]⟩, rest)
    | none =>
      if isLetter c then
        let word := String.ofList (c :: rest.takeWhile isLetter)
        (⟨Kind.ofWord word, word⟩, rest.dropWhile isLetter)
      else if isDigit c then
        (⟨.number, String.ofList (c :: rest.takeWhile isDigit)⟩, rest.dropWhile isDigit)
      else (⟨.illegal, String.ofList [c]⟩, rest)

/-- The next token of a text and what follows it. -/
def next (text : List Char) : Token × List Char :=
  match text.dropWhile isLayout with
  | [] => (sentinel, [])
  | c :: rest => read c rest

theorem length_dropWhile_le (p : Char → Bool) (text : List Char) :
    (text.dropWhile p).length ≤ text.length :=
  (List.dropWhile_sublist p).length_le

theorem read_length_le (c : Char) (rest : List Char) : (read c rest).2.length ≤ rest.length := by
  unfold read
  split
  · simp
  · split
    · exact Nat.le_refl _
    · split
      · exact length_dropWhile_le _ _
      · split
        · exact length_dropWhile_le _ _
        · exact Nat.le_refl _

theorem read_kind_ne (c : Char) (rest : List Char) : (read c rest).1.kind ≠ .endOfInput := by
  unfold read
  split
  · rename_i kind found
    unfold pairKind? at found
    grind
  · split
    · rename_i kind found
      unfold symbolKind? at found
      grind
    · split
      · exact Kind.ofWord_ne _
      · grind

theorem next_shortens (text : List Char) (more : (next text).1.kind ≠ .endOfInput) :
    (next text).2.length < text.length := by
  have bound := length_dropWhile_le isLayout text
  unfold next at more ⊢
  split
  · rename_i empty
    rw [empty] at more
    exact absurd rfl more
  · rename_i c rest found
    rw [found] at bound
    exact Nat.lt_of_le_of_lt (read_length_le c rest) bound

/-- All tokens of a text, without the sentinel that follows them. -/
def scan (text : List Char) : List Token :=
  if _more : (next text).1.kind ≠ .endOfInput then (next text).1 :: scan (next text).2 else []
termination_by text.length
decreasing_by exact next_shortens text ‹_›

/-- The tokens that `count` reads give, each with the number of characters read so far. -/
def reads (total : Nat) : Nat → List Char → List (Token × Nat)
  | 0, _ => []
  | count + 1, text =>
    let (token, rest) := next text
    (token, total - rest.length) :: reads total count rest

end MonkeyLang.Token
