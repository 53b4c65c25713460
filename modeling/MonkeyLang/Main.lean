import MonkeyLang.CommandLine

/-!
The program: files, the terminal and the exit code around `CommandLine` and `Shell`.
-/

namespace MonkeyLang.Main

def exitCode : Except Fault Unit → UInt32
  | .ok _ => 0
  | .error (.exit code) => ((code.toNat?).getD 1).toUInt32
  | .error _ => 1

def readBytes (path : String) : IO (Option (List UInt8)) := do
  try
    let bytes ← IO.FS.readBinFile path
    return some bytes.toList
  catch _ => return none

/-- Prompts for and takes each line as it is typed. -/
partial def converse (shell : Shell) : IO (Effect Shell Unit) := do
  let input ← IO.getStdin
  let output ← IO.getStdout
  output.putStr shell.prompt.text
  output.flush
  let line ← input.getLine
  let turn := shell.turn (if line.isEmpty then "EOF" else (line.dropSuffix "\n").toString)
  output.putStr turn.printed
  output.flush
  match turn.answer with
  | .error fault => return ⟨turn.state, "", .error fault⟩
  | .ok stop => if stop || line.isEmpty then return .done turn.state () else converse turn.state

def runShell (limit : Except Fault (Option Int)) : IO UInt32 := do
  let reporter : Reporter := ⟨false, none⟩
  IO.print Shell.intro
  let finish := reporter.guard (← converse (Shell.start (Session.start reporter limit)))
  IO.print finish.printed
  return exitCode finish.answer

def run (arguments : List String) : IO UInt32 := do
  match CommandLine.readOptions arguments with
  | .ok ⟨none, limit, _, _⟩ => runShell limit
  | options =>
    let path := (options.toOption.bind CommandLine.Options.file).getD ""
    let bytes ← readBytes path
    let finish := CommandLine.run arguments (fun name => if name = path then bytes else none) ""
    IO.print finish.output
    IO.eprint finish.complaints
    return exitCode finish.answer

end MonkeyLang.Main

def main (arguments : List String) : IO UInt32 := MonkeyLang.Main.run arguments
