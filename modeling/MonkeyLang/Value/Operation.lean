import MonkeyLang.Value

/-!
The operators on values.
-/

namespace MonkeyLang.Value

def unaryOperation (operator : String) (operand : Value) : Except Cause Value :=
  match operator with
  | "!" => .ok (.boolean (!operand.isTruthy))
  | "-" =>
    match operand with
    | .integer value => .ok (.integer (-value))
    | _ => .error (.unknownUnary operator operand.kind)
  | _ => .error (.unknownUnary operator operand.kind)

/-- A quotient is rounded toward zero. -/
def integerOperation (operator : String) (left right : Int) : Except Cause Value :=
  match operator with
  | "+" => .ok (.integer (left + right))
  | "-" => .ok (.integer (left - right))
  | "*" => .ok (.integer (left * right))
  | "/" =>
    if right = 0 then .error (.divisionByZero left) else .ok (.integer (Int.tdiv left right))
  | "<" => .ok (.boolean (left < right))
  | ">" => .ok (.boolean (left > right))
  | "==" => .ok (.boolean (left = right))
  | "!=" => .ok (.boolean (left ≠ right))
  | _ => .error (.unknownBinary .integer operator .integer)

/-- Operands that are not both numbers can only be compared, and are equal if they are identical. -/
def mixedOperation (operator : String) (left right : Value) : Except Cause Value :=
  match operator with
  | "==" => .ok (.boolean (left.identical right))
  | "!=" => .ok (.boolean (!left.identical right))
  | _ =>
    if left.kind = right.kind then .error (.unknownBinary left.kind operator right.kind)
    else .error (.typeMismatch left.kind operator right.kind)

def binaryOperation (operator : String) (left right : Value) : Except Cause Value :=
  match left, right with
  | .integer a, .integer b => integerOperation operator a b
  | _, _ => mixedOperation operator left right

theorem unaryOperation_not_error {operator : String} {operand result : Value}
    (computed : unaryOperation operator operand = .ok result) : result.isError = false := by
  unfold unaryOperation at computed
  split at computed
  · cases computed
    rfl
  · split at computed
    · cases computed
      rfl
    · cases computed
  · cases computed

theorem integerOperation_not_error {operator : String} {left right : Int} {result : Value}
    (computed : integerOperation operator left right = .ok result) : result.isError = false := by
  unfold integerOperation at computed
  grind [isError]

theorem mixedOperation_not_error {operator : String} {left right result : Value}
    (computed : mixedOperation operator left right = .ok result) : result.isError = false := by
  unfold mixedOperation at computed
  grind [isError]

theorem binaryOperation_not_error {operator : String} {left right result : Value}
    (computed : binaryOperation operator left right = .ok result) : result.isError = false := by
  unfold binaryOperation at computed
  split at computed
  · exact integerOperation_not_error computed
  · exact mixedOperation_not_error computed

end MonkeyLang.Value
