import MonkeyLang.Node.Canonical
import MonkeyLang.Numeral

/-!
What programs compute. An error is a value like any other, with the cause of the failure. A value that
is neither a number nor one of the three constants carries a tag: two such values are identical if
their tags are equal.
-/

namespace MonkeyLang

namespace Value

inductive Kind where
  | integer
  | boolean
  | null
  | returned
  | error
  | function
  deriving DecidableEq, Repr

def Kind.label : Kind → String
  | integer => "INTEGER"
  | boolean => "BOOLEAN"
  | null => "NULL"
  | returned => "RETURN_VALUE"
  | error => "ERROR"
  | function => "FUNCTION"

end Value

/-- Why a program fails. -/
inductive Cause where
  | unbound (name : String)
  | unknownUnary (operator : String) (operand : Value.Kind)
  | unknownBinary (left : Value.Kind) (operator : String) (right : Value.Kind)
  | typeMismatch (left : Value.Kind) (operator : String) (right : Value.Kind)
  | divisionByZero (dividend : Int)
  | notAFunction (found : Value.Kind)
  | argumentCount (wanted got : Nat)
  | missingNode
  | stepLimit (limit : Int)
  | tooDeep
  | other (text : String)
  deriving DecidableEq, Repr

namespace Cause

def message : Cause → String
  | unbound name => "identifier not found: " ++ name
  | unknownUnary operator operand => "unknown operator: " ++ operator ++ operand.label
  | unknownBinary left operator right =>
    "unknown operator: " ++ left.label ++ " " ++ operator ++ " " ++ right.label
  | typeMismatch left operator right =>
    "type mismatch: " ++ left.label ++ " " ++ operator ++ " " ++ right.label
  | divisionByZero dividend => "division by zero: " ++ Numeral.write dividend ++ " / 0"
  | notAFunction found => "not a function: " ++ found.label
  | argumentCount wanted got =>
    "wrong number of arguments: want=" ++ toString wanted ++ ", got=" ++ toString got
  | missingNode => "cannot evaluate node: NoneType"
  | stepLimit limit => "step limit exceeded: " ++ Numeral.write limit
  | tooDeep => "maximum recursion depth exceeded"
  | other text => text

/-- Whether the message holds no number that is too long. -/
def isWritable : Cause → Bool
  | divisionByZero n | stepLimit n => Numeral.isWritable n
  | _ => true

end Cause

inductive Value where
  | integer (value : Int)
  | boolean (value : Bool)
  | null
  /-- The value of a return statement on its way out of a function. -/
  | returned (value : Value) (tag : Nat)
  | error (cause : Cause) (tag : Nat)
  /-- A function with the scope it was made in. -/
  | function (parameters : List Identifier) (body : Node) (scope : Nat) (tag : Nat)
  deriving Inhabited, Repr

namespace Value

def kind : Value → Kind
  | integer _ => .integer
  | boolean _ => .boolean
  | null => .null
  | returned .. => .returned
  | error .. => .error
  | function .. => .function

def isError : Value → Bool
  | error .. => true
  | _ => false

def isReturned : Value → Bool
  | returned .. => true
  | _ => false

def isTruthy : Value → Bool
  | boolean value => value
  | null => false
  | _ => true

/-- The value as it is once out of the function. -/
def unwrap : Value → Value
  | returned value _ => value
  | value => value

/-- Whether two values are one. Numbers are not compared by this. -/
def identical : Value → Value → Bool
  | boolean left, boolean right => left = right
  | null, null => true
  | returned _ left, returned _ right => left = right
  | error _ left, error _ right => left = right
  | function _ _ _ left, function _ _ _ right => left = right
  | _, _ => false

/-- Equality by content for numbers and returned values, else identity. -/
def equal : Value → Value → Bool
  | integer left, integer right => left = right
  | returned left _, returned right _ => equal left right
  | left, right => identical left right

def height : Value → Nat
  | returned value _ => height value + 1
  | function _ body .. => body.height + 1
  | _ => 1

def isWritable : Value → Bool
  | integer value => Numeral.isWritable value
  | returned value _ => isWritable value
  | _ => true

def text : Value → String
  | integer value => Numeral.write value
  | boolean value => if value then "true" else "false"
  | null => "null"
  | returned value _ => text value
  | error cause _ => "ERROR: " ++ cause.message
  | function parameters body .. => "fn(" ++ Node.nameList parameters ++ ") " ++ body.text

def inspect (value : Value) : Except Fault String :=
  if Node.heightLimit < value.height then .error .tooDeep
  else if value.isWritable then .ok value.text
  else .error .unwritableInteger

/-- The value with the name of its kind, for listings. -/
def spelledOut : Value → String
  | integer value => "Integer(value=" ++ Numeral.write value ++ ")"
  | boolean value => if value then "Boolean(True)" else "Boolean(False)"
  | null => "Null()"
  | returned value _ => "ReturnValue(value=" ++ spelledOut value ++ ")"
  | error cause _ => "Error(message=" ++ Text.quoted cause.message ++ ")"
  | function parameters body scope tag =>
    "Function('" ++ text (function parameters body scope tag) ++ "')"

def describe (value : Value) : Except Fault String :=
  value.inspect.map fun _ => value.spelledOut

end Value

end MonkeyLang
