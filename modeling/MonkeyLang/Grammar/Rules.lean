import MonkeyLang.Grammar.Cursor
import MonkeyLang.Grammar.Precedence
import MonkeyLang.Node.Canonical
import MonkeyLang.Numeral

/-!
The rules by which tokens form a tree. A rule starts with the current token on the first token of
what it reads and ends with it on the last. Each takes `sub`, the expressions one level further down;
`expression` ties the rules together over the levels that are left.

A rule that meets a mistake records it and refuses. The statement it was part of is left out, and the
statements around it go on. Where no level is left, the outermost statement is left out instead.
-/

namespace MonkeyLang.Grammar

open Token (Kind)

inductive Refusal where
  | malformed
  | tooDeep
  deriving DecidableEq, Repr

abbrev Rule (α : Type) := ExceptT Refusal (StateM Cursor) α

def current : Rule Token := do return (← get).current

def peek : Rule Token := do return (← get).peek

def advance : Rule Unit := modify Cursor.advance

/-- The number of tokens ahead bounds every repetition, since each round takes a token. -/
def remaining : Rule Nat := do return (← get).ahead.length

def refuse {α : Type} (mistake : Mistake) : Rule α := do
  modify (·.record mistake)
  throw .malformed

def expect (kind : Kind) : Rule Unit := do
  let next ← peek
  if next.kind = kind then advance else refuse (.expected kind next.kind)

def passSemicolon : Rule Unit := do
  let next ← peek
  if next.kind = .semicolon then advance else pure ()

def identifier : Rule Identifier := do
  let token ← current
  return ⟨token, token.literal⟩

def number : Rule Node := do
  let token ← current
  match Numeral.read? token.literal.toList with
  | some value => pure (.number token value)
  | none => refuse (.badNumeral token.literal)

def truth : Rule Node := do
  let token ← current
  return .truth token (token.kind = .trueWord)

/-- The further items of a list, each after a comma. -/
def itemsAfter {α : Type} (item : Rule α) : Nat → Rule (List α)
  | 0 => pure []
  | rounds + 1 => do
    let next ← peek
    if next.kind = .comma then
      advance
      let first ← item
      let rest ← itemsAfter item rounds
      pure (first :: rest)
    else pure []

/-- A list in parentheses, with the current token on the opening one. An item starts before its
first token. -/
def listed {α : Type} (item : Rule α) : Rule (List α) := do
  let next ← peek
  if next.kind = .closeParen then
    advance
    pure []
  else
    let first ← item
    let rest ← itemsAfter item (← remaining)
    expect .closeParen
    pure (first :: rest)

def parameters : Rule (List Identifier) := listed do
  expect .name
  identifier

section

variable (sub : Precedence → Rule Node)

def arguments : Rule (List Node) := listed do
  advance
  sub .lowest

def letStatement : Rule Node := do
  let token ← current
  expect .name
  let target ← identifier
  expect .assign
  advance
  let value ← sub .lowest
  passSemicolon
  return .binding token target value

def returnStatement : Rule Node := do
  let token ← current
  advance
  let value ← sub .lowest
  passSemicolon
  return .returning token value

def expressionStatement : Rule Node := do
  let token ← current
  let expression ← sub .lowest
  passSemicolon
  return .statement token expression

def statement : Rule Node := do
  let token ← current
  match token.kind with
  | .letWord => letStatement sub
  | .returnWord => returnStatement sub
  | _ => expressionStatement sub

/-- One statement, or none where it is malformed and left behind. Running out of levels is settled
only outside all blocks. -/
def attempt : Rule (Option Node) := do
  let outer ← get
  tryCatch (some <$> statement sub) fun
    | .malformed => do
      modify Cursor.drop
      pure none
    | .tooDeep =>
      if outer.openBlocks = 0 then do
        modify fun cursor => ((cursor.record .tooDeep).closeAllBlocks).drop
        pure none
      else throw .tooDeep

def statementsFor (stop : Kind) : Nat → Rule (List Node)
  | 0 => pure []
  | rounds + 1 => do
    let token ← current
    if token.kind = stop ∨ token.kind = .endOfInput then pure []
    else
      match ← attempt sub with
      | none => statementsFor stop rounds
      | some first => do
        advance
        let rest ← statementsFor stop rounds
        pure (first :: rest)

/-- Statements up to a token of the kind `stop`, or to the end of the input. -/
def statements (stop : Kind) : Rule (List Node) := do
  statementsFor sub stop (← remaining)

def program : Rule Node := do return .program (← statements sub .endOfInput)

def block : Rule Node := do
  let token ← current
  advance
  modify Cursor.openBlock
  let inner ← statements sub .closeBrace
  modify Cursor.closeBlock
  let last ← current
  if last.kind = .closeBrace then pure (.block token inner)
  else refuse (.unclosedBlock last.kind)

def unary : Rule Node := do
  let token ← current
  advance
  let operand ← sub .unary
  return .unary token token.literal operand

def grouped : Rule Node := do
  advance
  let inner ← sub .lowest
  expect .closeParen
  pure inner

def conditional : Rule Node := do
  let token ← current
  expect .openParen
  advance
  let condition ← sub .lowest
  expect .closeParen
  expect .openBrace
  let consequence ← block sub
  let next ← peek
  if next.kind = .elseWord then
    advance
    expect .openBrace
    let alternative ← block sub
    pure (.conditional token condition consequence alternative)
  else pure (.conditional token condition consequence .missing)

def function : Rule Node := do
  let token ← current
  expect .openParen
  let names ← parameters
  expect .openBrace
  let body ← block sub
  return .function token names body

def operand : Rule Node := do
  let token ← current
  match token.kind with
  | .name => return .name (← identifier)
  | .number => number
  | .trueWord | .falseWord => truth
  | .bang | .minus => unary sub
  | .openParen => grouped sub
  | .ifWord => conditional sub
  | .fnWord => function sub
  | kind => refuse (.noOperand kind)

def binary (left : Node) : Rule Node := do
  let token ← current
  advance
  let right ← sub (Precedence.ofKind token.kind)
  return .binary token left token.literal right

def call (callee : Node) : Rule Node := do
  let token ← current
  let given ← arguments sub
  return .call token callee given

/-- Continues an expression with the operator or the argument list at the current token. -/
def extend (left : Node) : Rule Node := do
  let token ← current
  if token.kind = .openParen then call sub left else binary sub left

/-- Continues an expression as long as what follows binds tighter than `precedence`. -/
def climb (precedence : Precedence) : Nat → Node → Rule Node
  | 0, left => pure left
  | rounds + 1, left => do
    let next ← peek
    if precedence.rank < (Precedence.ofKind next.kind).rank then
      advance
      let wider ← extend sub left
      climb precedence rounds wider
    else pure left

end

/-- An expression of at most `depth` nested expressions. -/
def expression : Nat → Precedence → Rule Node
  | 0, _ => throw .tooDeep
  | depth + 1, precedence => do
    let left ← operand (expression depth)
    climb (expression depth) precedence (← remaining) left

end MonkeyLang.Grammar
