import MonkeyLang.CommandLine.Options
import MonkeyLang.Node.Outline
import MonkeyLang.Shell
import MonkeyLang.Text.Lines
import MonkeyLang.Text.Utf8

/-!
The command line: runs a file, prints its canonical text or its outline, or starts the shell.
-/

namespace MonkeyLang.CommandLine

def usage : String := "usage: monkey [-h] [--step-limit N] [--parse-only | --tree] [file]\n"

def help : String :=
  usage ++ "\nTree-walking interpreter for the Monkey language.\n\n" ++
  "positional arguments:\n" ++
  "  file            file to interpret and run (if empty, goes to command-line\n" ++
  "                  mode)\n\n" ++
  "options:\n" ++
  "  -h, --help      show this help message and exit\n" ++
  "  --step-limit N  stop evaluation with an error after N node visits\n" ++
  "  --parse-only    print the canonical form of the parsed file instead of\n" ++
  "                  running it\n" ++
  "  --tree          print the syntax tree of the parsed file instead of running\n" ++
  "                  it\n"

/-- The bytes of each file that can be opened. -/
abbrev Files := String → Option (List UInt8)

/-- The name that stands for the shell, for which no file is opened. -/
def shellPath : String := "<in>"

def readSource (files : Files) (path : String) : Except Fault String :=
  if path.contains '\x00' then .error .unusablePath
  else
    match files path with
    | none => .error (.problem (.plain ("'" ++ path ++ "' could not be opened") false))
    | some bytes =>
      match Text.decode bytes with
      | .error bad => .error (.undecodable bad)
      | .ok text => .ok (String.ofList (Text.unifyNewlines text))

def ofAnswer {α : Type} (answer : Except Fault α) : Effect Unit α := ⟨(), "", answer⟩

def printLine (text : String) : Effect Unit Unit := (Effect.done () ()).print (text ++ "\n")

/-- Prints the canonical text or the outline of the program in a file. -/
def showProgram (files : Files) (tree : Bool) (path : String) : Effect Unit Unit :=
  (ofAnswer do
    let program ← readProgram (← readSource files path)
    if tree then program.writeOutline 0 else program.write).andThen fun _ text => printLine text

/-- Runs the program in a file and prints its value. -/
def runProgram (reporter : Reporter) (files : Files) (limit : Except Fault (Option Int)) (path : String) :
    Effect Unit Unit :=
  let session := Session.start reporter limit
  (ofAnswer do
    if path = shellPath then return session
    else
      let (session, _) ← session.add (← readSource files path) none
      return session).andThen fun _ session =>
    (session.run.andThen fun session _ => session.showResults).within fun _ => ()

def runFile (files : Files) (options : Options) (path : String) : Effect Unit Unit :=
  let reporter : Reporter := ⟨true, some path⟩
  reporter.guard <|
    if options.parseOnly || options.tree then showProgram files options.tree path
    else runProgram reporter files options.limit path

def runShell (limit : Except Fault (Option Int)) (lines : List String) : Effect Unit Unit :=
  let reporter : Reporter := ⟨false, none⟩
  reporter.guard <|
    (((Shell.start (Session.start reporter limit)).converse lines).print Shell.intro).within
      fun _ => ()

/-- All that a call of the program writes, and the fault that ends it, if one does. -/
structure Finish where
  output : String
  complaints : String
  answer : Except Fault Unit

def run (arguments : List String) (files : Files) (input : String) : Finish :=
  match readOptions arguments with
  | .error .help => ⟨help, "", .error (.exit "0")⟩
  | .error (.misuse complaint) =>
    ⟨"", usage ++ "monkey: error: " ++ complaint ++ "\n", .error (.exit "2")⟩
  | .ok options =>
    let effect :=
      match options.file with
      | some path => runFile files options path
      | none => runShell options.limit ((Text.lines input.toList).map String.ofList)
    ⟨effect.printed, "", effect.answer⟩

end MonkeyLang.CommandLine
