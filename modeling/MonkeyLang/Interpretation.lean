import MonkeyLang.Evaluation
import MonkeyLang.Grammar

/-!
From source text to value.
-/

namespace MonkeyLang

/-- What comes of running a source in a scope, or the fault that kept it from being run. -/
def interpret (limit : Option Int) (source : String) (scope : Nat) (store : Store) :
    Except Fault Evaluation.Outcome := do
  let program ← readProgram source
  return Evaluation.evaluate limit program scope store

end MonkeyLang
