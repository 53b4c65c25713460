import MonkeyLang.Grammar.Cursor
import MonkeyLang.Grammar.Precedence

/-!
The levels of expressions: how tightly the outermost operator of one binds. Each precedence admits
the levels above it.
-/

namespace MonkeyLang.Grammar

open Token (Kind)

inductive Level where
  | equality
  | comparison
  | sum
  | product
  | unary
  | call
  | primary
  deriving DecidableEq, Repr

namespace Level

def rank : Level → Nat
  | equality => 2
  | comparison => 3
  | sum => 4
  | product => 5
  | unary => 6
  | call => 7
  | primary => 8

/-- The next level, at which the right operand of an operator stands. -/
def tighter : Level → Level
  | equality => comparison
  | comparison => sum
  | sum => product
  | product => unary
  | unary => call
  | call => primary
  | primary => primary

/-- The operators between two operands at a level. -/
def operators : Level → List Kind
  | equality => [.equal, .unequal]
  | comparison => [.less, .greater]
  | sum => [.plus, .minus]
  | product => [.asterisk, .slash]
  | unary => []
  | call => []
  | primary => []

theorem rank_le_tighter (level : Level) : level.rank ≤ level.tighter.rank := by
  cases level <;> decide

theorem rank_tighter_le (level : Level) : level.tighter.rank ≤ level.rank + 1 := by
  cases level <;> decide

theorem rank_inj {left right : Level} (same : left.rank = right.rank) : left = right := by
  cases left <;> cases right <;> first | rfl | cases same

end Level

namespace Precedence

/-- The least level of what is read with a precedence. -/
def above : Precedence → Level
  | lowest => .equality
  | equality => .comparison
  | comparison => .sum
  | sum => .product
  | product => .unary
  | unary => .unary
  | call => .unary

theorem above_rank_le (precedence : Precedence) : precedence.above.rank ≤ Level.unary.rank := by
  cases precedence <;> decide

theorem above_rank_le_succ (precedence : Precedence) :
    precedence.above.rank ≤ precedence.rank + 1 := by
  cases precedence <;> decide

theorem rank_pos (precedence : Precedence) : 1 ≤ precedence.rank := by
  cases precedence <;> decide

theorem rank_le_above {precedence : Precedence} (open_ended : precedence ≠ .call) :
    precedence.rank ≤ precedence.above.rank := by
  cases precedence <;> first | decide | exact absurd rfl open_ended

theorem rank_le_call (precedence : Precedence) : precedence.rank ≤ Level.call.rank := by
  cases precedence <;> decide

/-- A token that continues an expression opens an argument list or is an operator of some level. -/
theorem continues {kind : Kind} (bound : 1 < (ofKind kind).rank) (operates : kind ≠ .openParen) :
    ∃ level : Level, kind ∈ level.operators ∧ level.rank = (ofKind kind).rank ∧
      (ofKind kind).above = level.tighter := by
  cases kind <;> first
    | exact absurd bound (by decide)
    | exact absurd rfl operates
    | exact ⟨.equality, by decide, rfl, rfl⟩
    | exact ⟨.comparison, by decide, rfl, rfl⟩
    | exact ⟨.sum, by decide, rfl, rfl⟩
    | exact ⟨.product, by decide, rfl, rfl⟩

theorem rank_lt_call {precedence : Precedence} (open_ended : precedence ≠ .call) :
    precedence.rank < Level.call.rank := by
  cases precedence <;> first | decide | exact absurd rfl open_ended

theorem rank_lt_of_above {precedence : Precedence} {level : Level}
    (admitted : precedence.above.rank ≤ level.rank) (infixed : level.rank < Level.unary.rank) :
    precedence.rank < level.rank := by
  have bound : precedence.above.rank < Level.unary.rank := by omega
  cases precedence <;> first | exact absurd bound (by decide) | exact admitted

theorem operates {kind : Kind} {level : Level} (operator : kind ∈ level.operators) :
    (ofKind kind).rank = level.rank ∧ (ofKind kind).above = level.tighter ∧
      level.rank < Level.unary.rank ∧ ofKind kind ≠ .call ∧ kind ≠ .openParen ∧
        kind ≠ .elseWord := by
  cases level <;> simp only [Level.operators, List.mem_cons, List.not_mem_nil, or_false] at operator
  all_goals rcases operator with rfl | rfl <;> decide

end Precedence

/-- The kind of the first token, or of the sentinel. -/
def upcoming (tokens : List Token) : Kind := (tokens.headD Token.sentinel).kind

def upcomingRank (tokens : List Token) : Nat := (Precedence.ofKind (upcoming tokens)).rank

/-- The rank of what follows. -/
def Cursor.nextRank (cursor : Cursor) : Nat := upcomingRank cursor.ahead.tail

theorem nextRank_eq (cursor : Cursor) :
    cursor.nextRank = (Precedence.ofKind cursor.peek.kind).rank :=
  rfl

theorem nextRank_of_tail_nil {cursor : Cursor} (last : cursor.ahead.tail = []) :
    cursor.nextRank = 1 := by
  rw [Cursor.nextRank, last]
  rfl

theorem nextRank_le_call (cursor : Cursor) : cursor.nextRank ≤ Level.call.rank :=
  Precedence.rank_le_call _

theorem nextRank_le_primary (cursor : Cursor) : cursor.nextRank ≤ Level.primary.rank :=
  Nat.le_trans (nextRank_le_call cursor) (by decide)

end MonkeyLang.Grammar
