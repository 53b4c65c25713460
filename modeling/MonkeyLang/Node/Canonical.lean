import MonkeyLang.Fault
import MonkeyLang.Node

/-!
The canonical text of a tree: every operator expression in parentheses, one blank around binary
operators, statements separated by a semicolon. A tree higher than `heightLimit` is not written.
-/

namespace MonkeyLang.Node

def blockText : List String → String
  | [] => "\x7b \x7d"
  | statements => "\x7b " ++ "; ".intercalate statements ++ " \x7d"

def nameList (parameters : List Identifier) : String :=
  ", ".intercalate (parameters.map Identifier.name)

mutual
def text : Node → String
  | program statements => "; ".intercalate (texts statements)
  | binding token target value => token.literal ++ " " ++ target.name ++ " = " ++ text value
  | returning token value => token.literal ++ " " ++ text value
  | statement _ expression => text expression
  | block _ statements => blockText (texts statements)
  | name identifier => identifier.name
  | number token _ | truth token _ => token.literal
  | unary _ operator operand => "(" ++ operator ++ text operand ++ ")"
  | binary _ left operator right =>
    "(" ++ text left ++ " " ++ operator ++ " " ++ text right ++ ")"
  | conditional _ condition consequence alternative =>
    "if (" ++ text condition ++ ") " ++ text consequence ++
      if alternative.isMissing then "" else " else " ++ text alternative
  | function token parameters body =>
    token.literal ++ "(" ++ nameList parameters ++ ") " ++ text body
  | call _ callee arguments => text callee ++ "(" ++ ", ".intercalate (texts arguments) ++ ")"
  | missing => "None"

def texts : List Node → List String
  | [] => []
  | node :: rest => text node :: texts rest
end

def heightLimit : Nat := 1000

def write (node : Node) : Except Fault String :=
  if node.height ≤ heightLimit then .ok node.text else .error .tooDeep

end MonkeyLang.Node
