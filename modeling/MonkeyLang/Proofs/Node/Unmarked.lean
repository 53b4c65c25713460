import MonkeyLang.Node.Canonical

/-!
Trees up to the tokens of their expression statements. Such a token is the first of the expression,
which need not be a token of the canonical text: `a + b` is written `(a + b)`.
-/

namespace MonkeyLang.Node

mutual
/-- The tree with the tokens of its expression statements taken out. -/
def unmarked : Node → Node
  | program statements => program (unmarkedAll statements)
  | binding token target value => binding token target (unmarked value)
  | returning token value => returning token (unmarked value)
  | statement _ expression => statement Token.sentinel (unmarked expression)
  | block token statements => block token (unmarkedAll statements)
  | name identifier => name identifier
  | number token value => number token value
  | truth token value => truth token value
  | unary token operator operand => unary token operator (unmarked operand)
  | binary token left operator right => binary token (unmarked left) operator (unmarked right)
  | conditional token condition consequence alternative =>
    conditional token (unmarked condition) (unmarked consequence) (unmarked alternative)
  | function token parameters body => function token parameters (unmarked body)
  | call token callee arguments => call token (unmarked callee) (unmarkedAll arguments)
  | missing => missing

def unmarkedAll : List Node → List Node
  | [] => []
  | node :: rest => unmarked node :: unmarkedAll rest
end

theorem isMissing_unmarked (node : Node) : (unmarked node).isMissing = node.isMissing := by
  cases node <;> simp only [unmarked] <;> rfl

mutual
theorem text_unmarked : ∀ node : Node, text (unmarked node) = text node
  | program statements => by simp only [unmarked, text, texts_unmarkedAll statements]
  | binding _ _ value => by simp only [unmarked, text, text_unmarked value]
  | returning _ value => by simp only [unmarked, text, text_unmarked value]
  | statement _ expression => by simp only [unmarked, text, text_unmarked expression]
  | block _ statements => by simp only [unmarked, text, texts_unmarkedAll statements]
  | name _ => by simp only [unmarked]
  | number _ _ => by simp only [unmarked]
  | truth _ _ => by simp only [unmarked]
  | unary _ _ operand => by simp only [unmarked, text, text_unmarked operand]
  | binary _ left _ right => by simp only [unmarked, text, text_unmarked left, text_unmarked right]
  | conditional _ condition consequence alternative => by
    simp only [unmarked, text, text_unmarked condition, text_unmarked consequence,
      text_unmarked alternative, isMissing_unmarked]
  | function _ _ body => by simp only [unmarked, text, text_unmarked body]
  | call _ callee arguments => by
    simp only [unmarked, text, text_unmarked callee, texts_unmarkedAll arguments]
  | missing => by simp only [unmarked]

theorem texts_unmarkedAll : ∀ nodes : List Node, texts (unmarkedAll nodes) = texts nodes
  | [] => by simp only [unmarkedAll]
  | node :: rest => by simp only [unmarkedAll, texts, text_unmarked node, texts_unmarkedAll rest]
end

mutual
theorem height_unmarked : ∀ node : Node, height (unmarked node) = height node
  | program statements => by simp only [unmarked, height, heights_unmarkedAll statements]
  | binding _ _ value => by simp only [unmarked, height, height_unmarked value]
  | returning _ value => by simp only [unmarked, height, height_unmarked value]
  | statement _ expression => by simp only [unmarked, height, height_unmarked expression]
  | block _ statements => by simp only [unmarked, height, heights_unmarkedAll statements]
  | name _ => by simp only [unmarked]
  | number _ _ => by simp only [unmarked]
  | truth _ _ => by simp only [unmarked]
  | unary _ _ operand => by simp only [unmarked, height, height_unmarked operand]
  | binary _ left _ right => by
    simp only [unmarked, height, height_unmarked left, height_unmarked right]
  | conditional _ condition consequence alternative => by
    simp only [unmarked, height, height_unmarked condition, height_unmarked consequence,
      height_unmarked alternative]
  | function _ _ body => by simp only [unmarked, height, height_unmarked body]
  | call _ callee arguments => by
    simp only [unmarked, height, height_unmarked callee, heights_unmarkedAll arguments]
  | missing => by simp only [unmarked]

theorem heights_unmarkedAll : ∀ nodes : List Node, heights (unmarkedAll nodes) = heights nodes
  | [] => by simp only [unmarkedAll]
  | node :: rest => by
    simp only [unmarkedAll, heights, height_unmarked node, heights_unmarkedAll rest]
end

/-- Trees that differ only there are written the same. -/
theorem write_eq_of_unmarked {left right : Node} (same : left.unmarked = right.unmarked) :
    left.write = right.write := by
  unfold write
  rw [← height_unmarked left, ← height_unmarked right, ← text_unmarked left,
    ← text_unmarked right, same]

end MonkeyLang.Node
