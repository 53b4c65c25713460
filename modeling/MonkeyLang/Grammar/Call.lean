import MonkeyLang.Grammar

/-!
Reading by hand: a cursor that is moved by one rule at a time, in any order.
-/

namespace MonkeyLang.Grammar

open Token (Kind)

inductive Call where
  | advance
  | restart
  | expect (kind : Kind)
  | peekIs (kind : Kind)
  | currentIs (kind : Kind)
  | peekPrecedence
  | currentPrecedence
  | program
  | statement
  | letStatement
  | returnStatement
  | expressionStatement
  | block
  | expression (precedence : Precedence)
  | identifier
  | number
  | truth
  | unary
  | grouped
  | conditional
  | function
  | parameters
  | arguments
  deriving DecidableEq, Repr

/-- What a call gives: nothing also where the rule was refused. -/
inductive Reply where
  | nothing
  | node (node : Node)
  | nodes (nodes : List Node)
  | precedence (precedence : Precedence)
  | flag (flag : Bool)
  deriving DecidableEq, Repr

namespace Call

/-- Whether the next token is of a kind. If so, it becomes the current one; if not, that is a
mistake. -/
def tryExpect (kind : Kind) : Rule Reply :=
  tryCatch (do Grammar.expect kind; return .flag true) fun refusal =>
    match refusal with
    | .malformed => return .flag false
    | .tooDeep => throw .tooDeep

def rule (depth : Nat) : Call → Rule Reply
  | advance => do Grammar.advance; return .nothing
  | restart => do modify Cursor.restart; return .nothing
  | expect kind => tryExpect kind
  | peekIs kind => do return .flag ((← peek).kind = kind)
  | currentIs kind => do return .flag ((← current).kind = kind)
  | peekPrecedence => do return .precedence (Precedence.ofKind (← peek).kind)
  | currentPrecedence => do return .precedence (Precedence.ofKind (← current).kind)
  | program => do return .node (← Grammar.program (Grammar.expression depth))
  | statement => do return .node (← Grammar.statement (Grammar.expression depth))
  | letStatement => do return .node (← Grammar.letStatement (Grammar.expression depth))
  | returnStatement => do return .node (← Grammar.returnStatement (Grammar.expression depth))
  | expressionStatement => do
    return .node (← Grammar.expressionStatement (Grammar.expression depth))
  | block => do return .node (← Grammar.block (Grammar.expression depth))
  | expression precedence => do return .node (← Grammar.expression depth precedence)
  | identifier => do return .node (.name (← Grammar.identifier))
  | number => do return .node (← Grammar.number)
  | truth => do return .node (← Grammar.truth)
  | unary => do return .node (← Grammar.unary (Grammar.expression depth))
  | grouped => do return .node (← Grammar.grouped (Grammar.expression depth))
  | conditional => do return .node (← Grammar.conditional (Grammar.expression depth))
  | function => do return .node (← Grammar.function (Grammar.expression depth))
  | parameters => do return .nodes ((← Grammar.parameters).map .name)
  | arguments => do return .nodes (← Grammar.arguments (Grammar.expression depth))

def run (depth : Nat) (call : Call) (cursor : Cursor) : Except Fault Reply × Cursor :=
  match (call.rule depth).run.run cursor with
  | (.ok reply, cursor) => (.ok reply, cursor)
  | (.error .malformed, cursor) => (.ok .nothing, cursor)
  | (.error .tooDeep, cursor) => (.error .tooDeep, cursor)

end Call

end MonkeyLang.Grammar
