import MonkeyLang.Evaluation
import MonkeyLang.Grammar
import MonkeyLang.Reporter
import MonkeyLang.Text.Blank

/-!
A session: programs that wait to be run, the scope they share, and the values of those that were run.
-/

namespace MonkeyLang

structure Session where
  reporter : Reporter
  /-- The most nodes that each program may visit, or the fault that ends any program. -/
  limit : Except Fault (Option Int)
  store : Store
  /-- The programs not yet run, each with the number of the line it was given on. -/
  queue : List (Option Int × Node)
  results : List Value

namespace Session

/-- The number of the scope that all programs of a session share. -/
def scope : Nat := 0

def start (reporter : Reporter) (limit : Except Fault (Option Int)) : Session :=
  ⟨reporter, limit, Store.empty.addScope none, [], []⟩

def opens (c : Char) : Bool := c = '(' || c = '{'

def closes (c : Char) : Bool := c = ')' || c = '}'

/-- Whether brackets are left open, by count alone. -/
def isOpen (text : List Char) : Bool := text.countP closes < text.countP opens

/-- Joins a line to the unfinished input before it and tells whether more input is needed. -/
def joinLine (line before : String) : String × Bool :=
  let joined := if before = "" then line.toList else before.toList ++ '\n' :: line.toList
  let text := Text.trimRight joined
  (String.ofList text, isOpen text)

/-- Queues the program of a source without mistakes. -/
def add (session : Session) (source : String) (line : Option Int) : Except Fault (Session × Node) := do
  let program ← readProgram source
  return ({ session with queue := session.queue ++ [(line, program)] }, program)

def endsInBinding : Node → Bool
  | .program statements => statements.getLast?.any Node.isBinding
  | _ => false

/-- Runs programs in turn. Errors are reported, and the value of a program that ends in a binding is
not kept. -/
def runAll (session : Session) : List (Option Int × Node) → Effect Session Unit
  | [] => .done { session with queue := [] } ()
  | (line, program) :: rest =>
    match session.limit with
    | .error fault => ⟨{ session with queue := rest }, "", .error fault⟩
    | .ok limit =>
      let outcome := Evaluation.evaluate limit program scope session.store
      let session := { session with store := outcome.store, queue := rest }
      match outcome.result with
      | .error fault => ⟨session, "", .error fault⟩
      | .ok (.error cause _) =>
        (session.reporter.report (.plain cause.message false) line session).andThen
          fun session _ => runAll session rest
      | .ok value =>
        if endsInBinding program then runAll session rest
        else runAll { session with results := session.results ++ [value] } rest

def run (session : Session) : Effect Session Unit := session.runAll session.queue

/-- Takes out the oldest result. -/
def pop (session : Session) : Effect Session Value :=
  match session.results with
  | [] => ⟨session, "", .error .noResult⟩
  | value :: rest => .done { session with results := rest } value

/-- Takes out and prints results, each on a line. -/
def showAll (session : Session) : List Value → Effect Session Unit
  | [] => .done { session with results := [] } ()
  | value :: rest =>
    match value.inspect with
    | .ok text => (showAll session rest).print (text ++ "\n")
    | .error fault => ⟨{ session with results := rest }, "", .error fault⟩

def showResults (session : Session) : Effect Session Unit := session.showAll session.results

end Session

end MonkeyLang
