import MonkeyLang.Token

/-!
The tree of a program. A node keeps the token it was built from. `missing` stands where a part is
absent: the second branch of a conditional that has one branch, or a part that was never built.
-/

namespace MonkeyLang

structure Identifier where
  token : Token
  name : String
  deriving DecidableEq, Repr

inductive Node where
  | program (statements : List Node)
  | binding (token : Token) (target : Identifier) (value : Node)
  | returning (token : Token) (value : Node)
  | statement (token : Token) (expression : Node)
  | block (token : Token) (statements : List Node)
  | name (identifier : Identifier)
  | number (token : Token) (value : Int)
  | truth (token : Token) (value : Bool)
  | unary (token : Token) (operator : String) (operand : Node)
  | binary (token : Token) (left : Node) (operator : String) (right : Node)
  | conditional (token : Token) (condition consequence alternative : Node)
  | function (token : Token) (parameters : List Identifier) (body : Node)
  | call (token : Token) (callee : Node) (arguments : List Node)
  | missing
  deriving Inhabited, Repr

namespace Node

def label : Node → String
  | program _ => "Program"
  | binding .. => "LetStatement"
  | returning .. => "ReturnStatement"
  | statement .. => "ExpressionStatement"
  | block .. => "BlockStatement"
  | name _ => "Identifier"
  | number .. => "IntegerLiteral"
  | truth .. => "Boolean"
  | unary .. => "PrefixExpression"
  | binary .. => "InfixExpression"
  | conditional .. => "IfExpression"
  | function .. => "FunctionLiteral"
  | call .. => "CallExpression"
  | missing => "NoneType"

def token? : Node → Option Token
  | program _ | missing => none
  | name identifier => some identifier.token
  | binding token .. | returning token _ | statement token _ | block token _ | number token _
  | truth token _ | unary token .. | binary token .. | conditional token .. | function token ..
  | call token .. => some token

/-- The text of a node's token. A program has that of its first statement, or none of its own. -/
def literal? : Node → Option String
  | missing => none
  | program [] => some ""
  | program (first :: _) => first.literal?
  | node => node.token?.map Token.literal

def isMissing : Node → Bool
  | missing => true
  | _ => false

def isBinding : Node → Bool
  | binding .. => true
  | _ => false

/-- The parts of a node in the order of the text. -/
def parts : Node → List Node
  | program statements | block _ statements => statements
  | binding _ target value => [name target, value]
  | returning _ value => [value]
  | statement _ expression => [expression]
  | name _ | number .. | truth .. | missing => []
  | unary _ _ operand => [operand]
  | binary _ left _ right => [left, right]
  | conditional _ condition consequence alternative => [condition, consequence, alternative]
  | function _ parameters body => parameters.map name ++ [body]
  | call _ callee arguments => callee :: arguments

def children (node : Node) : List Node := node.parts.filter (!·.isMissing)

mutual
def height : Node → Nat
  | program statements | block _ statements => heights statements + 1
  | binding _ _ value | returning _ value => height value + 1
  | statement _ expression => height expression + 1
  | name _ | number .. | truth .. | missing => 1
  | unary _ _ operand => height operand + 1
  | binary _ left _ right => max (height left) (height right) + 1
  | conditional _ condition consequence alternative =>
    max (height condition) (max (height consequence) (height alternative)) + 1
  | function _ _ body => height body + 1
  | call _ callee arguments => max (height callee) (heights arguments) + 1

def heights : List Node → Nat
  | [] => 0
  | node :: rest => max (height node) (heights rest)
end

theorem height_pos (node : Node) : 0 < node.height := by
  cases node <;> simp [height]

theorem height_le_heights {node : Node} {nodes : List Node} (member : node ∈ nodes) :
    node.height ≤ heights nodes := by
  induction nodes with
  | nil => cases member
  | cons first rest ih =>
    simp only [heights]
    rcases List.mem_cons.mp member with rfl | inside
    · exact Nat.le_max_left _ _
    · exact Nat.le_trans (ih inside) (Nat.le_max_right _ _)

theorem height_lt_of_mem_parts {child node : Node} (member : child ∈ node.parts) :
    child.height < node.height := by
  cases node with
  | program statements =>
    have bound : child.height ≤ heights statements := height_le_heights member
    simp only [height]
    omega
  | block token statements =>
    have bound : child.height ≤ heights statements := height_le_heights member
    simp only [height]
    omega
  | call token callee arguments =>
    simp only [height]
    rcases List.mem_cons.mp member with rfl | inside
    · omega
    · have := height_le_heights inside
      omega
  | binding token target value =>
    have := height_pos value
    simp only [parts, List.mem_cons, List.not_mem_nil, or_false] at member
    rcases member with rfl | rfl <;> simp only [height] <;> omega
  | function token parameters body =>
    have := height_pos body
    simp only [parts, List.mem_append, List.mem_map, List.mem_singleton] at member
    rcases member with ⟨_, _, rfl⟩ | rfl <;> simp only [height] <;> omega
  | returning | statement | unary | binary | conditional =>
    simp only [parts, List.mem_cons, List.not_mem_nil, or_false] at member
    simp only [height]
    grind
  | name | number | truth | missing => cases member

theorem height_lt_of_mem_children {child node : Node} (member : child ∈ node.children) :
    child.height < node.height :=
  height_lt_of_mem_parts (List.mem_filter.mp member).1

/-- The node and all below it, each before its children, with their depths. -/
def preorder (depth : Nat) (node : Node) : List (Nat × Node) :=
  (depth, node) :: node.children.attach.flatMap fun ⟨child, _⟩ => preorder (depth + 1) child
termination_by node.height
decreasing_by exact height_lt_of_mem_children ‹_›

end Node

end MonkeyLang
