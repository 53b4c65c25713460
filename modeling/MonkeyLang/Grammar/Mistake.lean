import MonkeyLang.Token

/-!
What can be wrong with a statement.
-/

namespace MonkeyLang.Grammar

open Token (Kind)

inductive Mistake where
  | expected (wanted found : Kind)
  | noOperand (found : Kind)
  | badNumeral (literal : String)
  | unclosedBlock (found : Kind)
  | tooDeep
  deriving DecidableEq, Repr

def Mistake.message : Mistake → String
  | expected wanted found =>
    "expected next token to be " ++ wanted.label ++ ", got " ++ found.label ++ " instead"
  | noOperand found => "no prefix parse function for " ++ found.label ++ " found"
  | badNumeral literal => "could not parse " ++ Text.quoted literal ++ " as integer"
  | unclosedBlock found =>
    "expected " ++ Kind.closeBrace.label ++ " to close block, got " ++ found.label ++ " instead"
  | tooDeep => "maximum nesting depth exceeded"

end MonkeyLang.Grammar
