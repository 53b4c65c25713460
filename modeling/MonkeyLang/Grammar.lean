import MonkeyLang.Grammar.Rules
import MonkeyLang.Node.Equality
import MonkeyLang.Token.Scan

/-!
Reading a program: the statements that are well formed, and a message for each that is not.
-/

namespace MonkeyLang

/-- What was read of a source: `program` holds the statements that are well formed. -/
structure Parsed where
  program : Node
  mistakes : List Grammar.Mistake
  deriving DecidableEq, Repr

namespace Grammar

/-- The number of nested expressions that are read. -/
def depthLimit : Nat := 500

def readTokens (depth : Nat) (tokens : List Token) : Parsed :=
  match (program (expression depth)).run.run (Cursor.start tokens) with
  | (.ok node, cursor) => ⟨node, cursor.mistakes⟩
  | (.error _, cursor) => ⟨.program [], cursor.mistakes⟩

def readText (depth : Nat) (source : String) : Parsed :=
  readTokens depth (Token.scan source.toList)

end Grammar

namespace Parsed

def ofTokens (tokens : List Token) : Parsed := Grammar.readTokens Grammar.depthLimit tokens

def ofText (source : String) : Parsed := Grammar.readText Grammar.depthLimit source

def messages (parsed : Parsed) : List String := parsed.mistakes.map Grammar.Mistake.message

end Parsed

/-- The program of a source without mistakes. -/
def readProgram (source : String) : Except Fault Node :=
  let parsed := Parsed.ofText source
  if parsed.mistakes.isEmpty then .ok parsed.program
  else .error (.problem (.rejected parsed.messages source))

end MonkeyLang
