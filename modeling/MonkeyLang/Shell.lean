import MonkeyLang.Session

/-!
The interactive shell: a session fed line by line. Input with open brackets waits for more lines; on
lines of their own a few words are commands.
-/

namespace MonkeyLang

namespace Shell

inductive Prompt where
  | ready
  | more
  deriving DecidableEq, Repr

def Prompt.text : Prompt → String
  | ready => ">> "
  | more => ".. "

inductive Command where
  | help
  | exit
  | endOfInput
  deriving DecidableEq, Repr

def Command.ofWord? : String → Option Command
  | "help" => some help
  | "exit" => some exit
  | "EOF" => some endOfInput
  | _ => none

/-- What a line asks for. -/
inductive Request where
  | nothing
  | input (line : String)
  | command (command : Command) (argument : String)
  deriving DecidableEq, Repr

def isWordChar (c : Char) : Bool :=
  ('a' ≤ c && c ≤ 'z') || ('A' ≤ c && c ≤ 'Z') || ('0' ≤ c && c ≤ '9') || c = '_'

/-- What a line without margins asks for when no input is pending. -/
def requestOf : List Char → Request
  | [] => .nothing
  | '?' :: rest => .command .help (String.ofList (Text.trim rest))
  | line =>
    match Command.ofWord? (String.ofList (line.takeWhile isWordChar)) with
    | some command => .command command (String.ofList (Text.trim (line.dropWhile isWordChar)))
    | none => .input (String.ofList line)

def intro : String :=
  "Monkey interpreter :: Python backend\nType 'help' for more information.\n"

def helpText : String :=
  "Welcome to the Monkey interpreter!\n\n" ++
  "Monkey is a small expression-oriented language with integers, booleans,\n" ++
  "conditionals and first-class functions. Bindings persist for the whole session.\n\n" ++
  "Try it out by typing 'let add = fn(a, b) \x7b a + b \x7d;'. This binds a function\n" ++
  "to the name 'add'. Next, try typing 'add(1, 2)', giving '3' as the result.\n" ++
  "Unclosed parentheses or braces continue the input on the next line.\n" ++
  "Type 'exit' or press Ctrl-D to leave.\n"

end Shell

structure Shell where
  session : Session
  /-- The unfinished input so far. -/
  pending : String
  prompt : Shell.Prompt
  lineNumber : Nat

namespace Shell

def start (session : Session) : Shell := ⟨session, "", .ready, 0⟩

/-- Runs a source and prints its value. -/
def submit (shell : Shell) (source : String) : Effect Shell Unit :=
  match shell.session.add source (some shell.lineNumber) with
  | .error fault => ⟨shell, "", .error fault⟩
  | .ok (session, _) =>
    (session.run.andThen fun session _ => session.showResults).within
      fun session => { shell with session := session }

/-- Takes a line of input. -/
def enter (shell : Shell) (line : String) : Effect Shell Unit :=
  let number := shell.lineNumber + 1
  let (source, more) := Session.joinLine line shell.pending
  if more then .done ⟨shell.session, source, .more, number⟩ ()
  else
    let shell : Shell := ⟨shell.session, "", .ready, number⟩
    if source = "" then .done shell ()
    else shell.session.reporter.guard (shell.submit source)

def request (shell : Shell) (line : String) : Request :=
  if shell.pending = "" then requestOf (Text.trim line.toList)
  else if line = "" then .nothing
  else .input line

def leave (shell : Shell) (argument : String) : Effect Shell Bool :=
  if argument = "" then .done shell true
  else
    (Effect.done shell true).print
      (shell.session.reporter.warning ("ignoring arguments to exit: '" ++ argument ++ "'") none)

/-- Takes a line and tells whether it was the last. -/
def turn (shell : Shell) (line : String) : Effect Shell Bool :=
  match shell.request line with
  | .nothing =>
    if shell.pending = "" then .done shell false
    else (shell.enter "").andThen fun shell _ => .done shell false
  | .input line => (shell.enter line).andThen fun shell _ => .done shell false
  | .command .help _ => (Effect.done shell false).print helpText
  | .command .exit argument => shell.leave argument
  | .command .endOfInput argument => (shell.leave argument).print "\n"

/-- Prompts for and takes each line until one is the last. The end of the input counts as a line that
says so. -/
def converse (shell : Shell) : List String → Effect Shell Unit
  | [] =>
    ((shell.turn "EOF").print shell.prompt.text).andThen fun shell _ => .done shell ()
  | line :: rest =>
    ((shell.turn line).print shell.prompt.text).andThen fun shell stop =>
      if stop then .done shell () else converse shell rest

end Shell

end MonkeyLang
