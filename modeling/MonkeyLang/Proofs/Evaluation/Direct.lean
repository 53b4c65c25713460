import MonkeyLang.Evaluation
import MonkeyLang.Proofs.Store.Lookup

/-!
Trees whose return statements stand directly in a list of statements, or in the branches of a
conditional that does, and stores that hold no other functions and no returned value.
-/

namespace MonkeyLang

namespace Node

mutual
/-- Whether a return statement in the node, outside every function, can end the node. -/
def returns : Node → Bool
  | returning .. => true
  | program _ | name _ | number .. | truth .. | function .. | missing => false
  | block _ statements => returnsAny statements
  | binding _ _ value => returns value
  | statement _ expression => returns expression
  | unary _ _ operand => returns operand
  | binary _ left _ right => returns left || returns right
  | conditional _ condition consequence alternative =>
    returns condition || returns consequence || returns alternative
  | call _ callee arguments => returns callee || returnsAny arguments

def returnsAny : List Node → Bool
  | [] => false
  | node :: rest => returns node || returnsAny rest
end

mutual
/-- Whether no return statement stands where a value is used: in the value of a binding or of another
return statement, an operand, a condition, a callee or an argument. -/
def isDirect : Node → Bool
  | program statements | block _ statements => isDirectAll statements
  | binding _ _ value | returning _ value | unary _ _ value => isDirect value && !returns value
  | statement _ expression => isDirect expression
  | name _ | number .. | truth .. | missing => true
  | binary _ left _ right => isDirect left && !returns left && (isDirect right && !returns right)
  | conditional _ condition consequence alternative =>
    isDirect condition && !returns condition && (isDirect consequence && isDirect alternative)
  | function _ _ body => isDirect body
  | call _ callee arguments =>
    isDirect callee && !returns callee && (isDirectAll arguments && !returnsAny arguments)

def isDirectAll : List Node → Bool
  | [] => true
  | node :: rest => isDirect node && isDirectAll rest
end

end Node

namespace Value

/-- Whether a value is not on its way out of a function, and its body is direct if it is one. -/
def IsPlain : Value → Prop
  | returned .. => False
  | function _ body .. => body.isDirect = true
  | _ => True

instance : DecidablePred IsPlain
  | returned .. => .isFalse id
  | function _ body .. => inferInstanceAs (Decidable (body.isDirect = true))
  | integer _ | boolean _ | null | error .. => .isTrue trivial

theorem unaryOperation_plain {operator : String} {operand result : Value}
    (computed : unaryOperation operator operand = .ok result) : result.IsPlain := by
  unfold unaryOperation at computed
  split at computed
  · cases computed
    trivial
  · split at computed
    · cases computed
      trivial
    · cases computed
  · cases computed

theorem binaryOperation_plain {operator : String} {left right result : Value}
    (computed : binaryOperation operator left right = .ok result) : result.IsPlain := by
  unfold binaryOperation at computed
  split at computed
  · unfold integerOperation at computed
    grind [IsPlain]
  · unfold mixedOperation at computed
    grind [IsPlain]

end Value

def Scope.IsPlain (scope : Scope) : Prop := ∀ binding ∈ scope.bindings, binding.2.IsPlain

def Store.IsPlain (store : Store) : Prop := ∀ scope ∈ store.scopes, scope.IsPlain

instance (store : Store) : Decidable store.IsPlain :=
  inferInstanceAs (Decidable (∀ scope ∈ store.scopes, ∀ binding ∈ scope.bindings, binding.2.IsPlain))

namespace Store.IsPlain

variable {store : Store}

theorem find? (plain : store.IsPlain) {scope : Nat} {name : String} {value : Value}
    (found : store.find? scope name = some value) : value.IsPlain := by
  obtain ⟨index, inner, present, binding, member, rfl⟩ := binds_of_find? found
  exact plain inner (Array.mem_of_getElem? present) binding member

theorem assign (plain : store.IsPlain) (scope : Nat) (name : String) {value : Value}
    (fine : value.IsPlain) : (store.assign scope name value).IsPlain := by
  intro changed member binding inside
  obtain ⟨index, present⟩ := Array.mem_iff_getElem?.mp member
  obtain ⟨before, old, _, among⟩ := getElem?_assign present
  rcases among binding inside with rfl | earlier
  · exact fine
  · exact plain before (Array.mem_of_getElem? old) binding earlier

theorem addScope (plain : store.IsPlain) (outer : Option Nat) : (store.addScope outer).IsPlain := by
  intro scope member
  rcases Array.mem_push.mp member with old | rfl
  · exact plain scope old
  · intro binding inside
    cases inside

end Store.IsPlain

end MonkeyLang
