import MonkeyLang.Effect

/-!
Reports in colour. A report starts with the place it is about, in bold, and a label; a source that
was not accepted has a line for each mistake. A fatal reporter ends the program after a report.
-/

namespace MonkeyLang

structure Reporter where
  fatal : Bool
  path : Option String
  deriving DecidableEq, Repr

namespace Reporter

def bold (text : String) : String := "\x1b[1m" ++ text ++ "\x1b[0m"

def boldRed (text : String) : String := "\x1b[1m\x1b[31m" ++ text ++ "\x1b[0m"

def boldMagenta (text : String) : String := "\x1b[1m\x1b[35m" ++ text ++ "\x1b[0m"

def place (reporter : Reporter) (line : Option Int) : String :=
  match reporter.path, line with
  | none, _ => ""
  | some path, none => bold (path ++ ": ")
  | some path, some number => bold (path ++ ":" ++ toString number ++ ": ")

def body : Problem → String
  | .plain text _ => text
  | .rejected messages _ =>
    toString messages.length ++ " parse error" ++ (if messages.length = 1 then "" else "s") ++
      String.join (messages.map ("\n\t" ++ ·))

def format (reporter : Reporter) (problem : Problem) (line : Option Int) : String :=
  reporter.place line ++ (if problem.isInternal then boldRed "[internal] " else "") ++
    boldRed "error: " ++ body problem

def warning (reporter : Reporter) (text : String) (line : Option Int) : String :=
  reporter.place line ++ boldMagenta "warning: " ++ text ++ "\n"

/-- Reports a problem in a state that the report leaves as it is. -/
def report {σ : Type} (reporter : Reporter) (problem : Problem) (line : Option Int) (state : σ) :
    Effect σ Unit :=
  ⟨state, reporter.format problem line ++ "\n",
    if reporter.fatal then .error (.exit "1") else .ok ()⟩

/-- Reports a fault. A request to exit passes in silence, and a fault that the interpreter does not
expect of its users is reported as internal and still comes out. -/
def settle {σ : Type} (reporter : Reporter) (fault : Fault) (state : σ) : Effect σ Unit :=
  match fault with
  | .problem problem => reporter.report problem none state
  | .interrupted => reporter.report (.plain "keyboard interrupt" false) none state
  | .tooDeep => reporter.report (.plain fault.text false) none state
  | .exit code => ⟨state, "", .error (.exit code)⟩
  | _ =>
    let complaint := "unknown error: '" ++ fault.kind ++ ": " ++ fault.text ++ "'"
    (reporter.report (.plain complaint true) none state).andThen
      fun state _ => ⟨state, "", .error fault⟩

/-- Settles the fault that ends an action, if one does. -/
def guard {σ : Type} (reporter : Reporter) (action : Effect σ Unit) : Effect σ Unit :=
  match action.answer with
  | .ok _ => action
  | .error fault => (reporter.settle fault action.state).print action.printed

end Reporter

end MonkeyLang
