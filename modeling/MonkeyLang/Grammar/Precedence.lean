import MonkeyLang.Token

/-!
How tightly an operator binds.
-/

namespace MonkeyLang.Grammar

open Token (Kind)

inductive Precedence where
  | lowest
  | equality
  | comparison
  | sum
  | product
  | unary
  | call
  deriving DecidableEq, Repr

namespace Precedence

def rank : Precedence → Nat
  | lowest => 1
  | equality => 2
  | comparison => 3
  | sum => 4
  | product => 5
  | unary => 6
  | call => 7

def all : List Precedence := [lowest, equality, comparison, sum, product, unary, call]

def ofRank? (rank : Nat) : Option Precedence := all.find? (·.rank = rank)

/-- The precedence with which a token continues the expression before it. Where it cannot, it is the
lowest, above which nothing is asked for. -/
def ofKind : Kind → Precedence
  | .equal | .unequal => equality
  | .less | .greater => comparison
  | .plus | .minus => sum
  | .asterisk | .slash => product
  | .openParen => call
  | _ => lowest

end Precedence

end MonkeyLang.Grammar
