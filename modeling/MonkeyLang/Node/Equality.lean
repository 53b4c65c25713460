import MonkeyLang.Node

/-!
Deciding whether two trees are equal, tokens included.
-/

namespace MonkeyLang.Node

mutual
def same : Node → Node → Bool
  | program left, program right => sameAll left right
  | binding token target value, binding token' target' value' =>
    token = token' && target = target' && same value value'
  | returning token value, returning token' value' => token = token' && same value value'
  | statement token expression, statement token' expression' =>
    token = token' && same expression expression'
  | block token statements, block token' statements' =>
    token = token' && sameAll statements statements'
  | name identifier, name identifier' => identifier = identifier'
  | number token value, number token' value' => token = token' && value = value'
  | truth token value, truth token' value' => token = token' && value = value'
  | unary token operator operand, unary token' operator' operand' =>
    token = token' && operator = operator' && same operand operand'
  | binary token left operator right, binary token' left' operator' right' =>
    token = token' && operator = operator' && same left left' && same right right'
  | conditional token condition consequence alternative,
    conditional token' condition' consequence' alternative' =>
    token = token' && same condition condition' && same consequence consequence' &&
      same alternative alternative'
  | function token parameters body, function token' parameters' body' =>
    token = token' && parameters = parameters' && same body body'
  | call token callee arguments, call token' callee' arguments' =>
    token = token' && same callee callee' && sameAll arguments arguments'
  | missing, missing => true
  | _, _ => false

def sameAll : List Node → List Node → Bool
  | [], [] => true
  | node :: rest, node' :: rest' => same node node' && sameAll rest rest'
  | _, _ => false
end

mutual
theorem same_iff : ∀ left right : Node, same left right = true ↔ left = right
  | program a, b => by cases b <;> simp [same, sameAll_iff a]
  | binding _ _ a, b => by cases b <;> simp [same, same_iff a, and_assoc]
  | returning _ a, b => by cases b <;> simp [same, same_iff a]
  | statement _ a, b => by cases b <;> simp [same, same_iff a]
  | block _ a, b => by cases b <;> simp [same, sameAll_iff a]
  | name _, b => by cases b <;> simp [same]
  | number _ _, b => by cases b <;> simp [same]
  | truth _ _, b => by cases b <;> simp [same]
  | unary _ _ a, b => by cases b <;> simp [same, same_iff a, and_assoc]
  | binary _ a _ a', b => by
    cases b <;> simp [same, same_iff a, same_iff a']
    grind
  | conditional _ a a' a'', b => by
    cases b <;> simp [same, same_iff a, same_iff a', same_iff a'', and_assoc]
  | function _ _ a, b => by cases b <;> simp [same, same_iff a, and_assoc]
  | call _ a a', b => by cases b <;> simp [same, same_iff a, sameAll_iff a', and_assoc]
  | missing, b => by cases b <;> simp [same]

theorem sameAll_iff : ∀ left right : List Node, sameAll left right = true ↔ left = right
  | [], b => by cases b <;> simp [sameAll]
  | a :: rest, b => by cases b <;> simp [sameAll, same_iff a, sameAll_iff rest]
end

instance : DecidableEq Node := fun left right => decidable_of_iff _ (same_iff left right)

end MonkeyLang.Node
