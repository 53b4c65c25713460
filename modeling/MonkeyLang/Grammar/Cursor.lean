import MonkeyLang.Grammar.Mistake

/-!
A place in a list of tokens. Two tokens are in view, the current one and the one after it; past the
list every token is the sentinel.
-/

namespace MonkeyLang.Grammar

open Token (Kind)

structure Cursor where
  /-- The tokens from the current one on. -/
  ahead : List Token
  /-- How many tokens were taken from the source, the two in view included. -/
  drawn : Nat
  openBlocks : Nat
  /-- How many statements were left out, those in blocks included. -/
  dropped : Nat
  mistakes : List Mistake
  deriving DecidableEq, Repr

/-- How many tokens of a malformed statement to pass over: all up to its semicolon and that too, or
all up to the brace that closes the block around it, if there is one. `braces` counts those opened on
the way. -/
def leftover (enclosed : Bool) : Nat → List Token → Nat
  | _, [] => 0
  | braces, token :: rest =>
    match token.kind with
    | .endOfInput => 0
    | .openBrace => leftover enclosed (braces + 1) rest + 1
    | .closeBrace =>
      if braces = 0 ∧ enclosed = true then 0 else leftover enclosed (braces - 1) rest + 1
    | .semicolon => if braces = 0 then 1 else leftover enclosed braces rest + 1
    | _ => leftover enclosed braces rest + 1

namespace Cursor

def start (tokens : List Token) : Cursor := ⟨tokens, 2, 0, 0, []⟩

def current (cursor : Cursor) : Token := cursor.ahead.headD Token.sentinel

def peek (cursor : Cursor) : Token := cursor.ahead.tail.headD Token.sentinel

def advance (cursor : Cursor) : Cursor :=
  { cursor with ahead := cursor.ahead.tail, drawn := cursor.drawn + 1 }

def skip (cursor : Cursor) (count : Nat) : Cursor :=
  { cursor with ahead := cursor.ahead.drop count, drawn := cursor.drawn + count }

def record (cursor : Cursor) (mistake : Mistake) : Cursor :=
  { cursor with mistakes := cursor.mistakes ++ [mistake] }

def openBlock (cursor : Cursor) : Cursor := { cursor with openBlocks := cursor.openBlocks + 1 }

def closeBlock (cursor : Cursor) : Cursor := { cursor with openBlocks := cursor.openBlocks - 1 }

def closeAllBlocks (cursor : Cursor) : Cursor := { cursor with openBlocks := 0 }

/-- Passes over the rest of a malformed statement. -/
def restart (cursor : Cursor) : Cursor :=
  cursor.skip (leftover (0 < cursor.openBlocks) 0 cursor.ahead)

/-- Leaves a malformed statement out. -/
def drop (cursor : Cursor) : Cursor := { cursor.restart with dropped := cursor.dropped + 1 }

end Cursor

end MonkeyLang.Grammar
