import MonkeyLang.Fault
import MonkeyLang.Numeral

/-!
The options of the command line. An option may be cut short as long as it stays the only one that
starts so, and may have its value attached by an equals sign. Two dashes alone end the options.
-/

namespace MonkeyLang.CommandLine

open Text

inductive Switch where
  | help
  | stepLimit
  | parseOnly
  | tree
  deriving DecidableEq, Repr

namespace Switch

def all : List Switch := [help, stepLimit, parseOnly, tree]

def spelling : Switch → String
  | help => "--help"
  | stepLimit => "--step-limit"
  | parseOnly => "--parse-only"
  | tree => "--tree"

/-- The name of an option in complaints. -/
def title : Switch → String
  | help => "-h/--help"
  | switch => switch.spelling

end Switch

/-- An argument by its form. The value attached to an option comes after an equals sign. The short
form of help may have more letters after it instead, with or without an equals sign between. -/
inductive Argument where
  | word (text : String)
  | switch (switch : Switch)
  | switchWith (switch : Switch) (value : String)
  | shortHelpWith (rest : List Char)
  | unknown (text : String)
  deriving DecidableEq, Repr

def isDecimal (c : Char) : Bool := (digitValue? c).isSome

/-- A run of digits, before which and after which nothing stands but one line feed at the end. -/
def isDigits (text : List Char) : Bool :=
  let digits := if text.getLast? = some '\n' then text.dropLast else text
  !digits.isEmpty && digits.all isDecimal

/-- A dash before a decimal number, with or without a point. -/
def isNegativeNumber : List Char → Bool
  | '-' :: rest =>
    match rest.dropWhile isDecimal with
    | '.' :: fraction => isDigits fraction
    | _ => isDigits rest
  | _ => false

/-- The options that a text starting with two dashes may be short for. -/
def candidates (start : List Char) : List Switch :=
  Switch.all.filter fun switch => start.isPrefixOf switch.spelling.toList

/-- The form of an argument before the two dashes that end the options, or what is wrong with it. -/
def classify (text : String) : Except String Argument :=
  let chars := text.toList
  let stem := chars.takeWhile (· ≠ '=')
  let value? := if chars.contains '=' then some (String.ofList (chars.drop (stem.length + 1))) else none
  let named (switch : Switch) : Argument :=
    match value? with
    | some value => .switchWith switch value
    | none => .switch switch
  match chars with
  | '-' :: '-' :: _ =>
    match Switch.all.find? (·.spelling.toList = stem) with
    | some switch => .ok (named switch)
    | none =>
      match candidates stem with
      | [] => .ok (if text.contains ' ' then .word text else .unknown text)
      | [switch] => .ok (named switch)
      | several =>
        .error ("ambiguous option: " ++ text ++ " could match " ++
          ", ".intercalate (several.map Switch.spelling))
  | ['-', 'h'] | ['-', 'h', '='] => .ok (named .help)
  | '-' :: 'h' :: '=' :: rest | '-' :: 'h' :: rest => .ok (.shortHelpWith rest)
  | '-' :: _ :: _ =>
    .ok (if isNegativeNumber chars || text.contains ' ' then .word text else .unknown text)
  | _ => .ok (.word text)

structure Options where
  file : Option String
  /-- The most nodes that a program may visit, or the fault that ends any program. -/
  limit : Except Fault (Option Int)
  parseOnly : Bool
  tree : Bool
  deriving Repr

/-- Why arguments give no options to go by. -/
inductive Refusal where
  | help
  | misuse (complaint : String)
  deriving DecidableEq, Repr

def Refusal.about (switch : Switch) (complaint : String) : Refusal :=
  .misuse ("argument " ++ switch.title ++ ": " ++ complaint)

def Refusal.ignored (switch : Switch) (value : String) : Refusal :=
  .about switch ("ignored explicit argument " ++ quoted value)

def Refusal.conflict (switch other : Switch) : Refusal :=
  .about switch ("not allowed with argument " ++ other.title)

/-- What follows the short form of help may ask for help again, as often as it likes. Anything else is
refused, from the first letter that does not. -/
def shortHelp (rest : List Char) : Refusal :=
  match rest.dropWhile (· = 'h') with
  | [] => .help
  | left => .ignored .help (String.ofList left)

/-- Options as far as they are read, and the arguments that there is no use for. -/
structure Progress where
  options : Options
  extra : List String
  deriving Repr

namespace Progress

/-- Two dashes, which can only be a value when attached, leave a limit that no count compares to. -/
def setLimit (progress : Progress) (value : String) : Except Refusal Progress :=
  if value = "--" then
    .ok { progress with options := { progress.options with limit := .error .unusableLimit } }
  else
    match Numeral.read? value.toList with
    | some limit =>
      .ok { progress with options := { progress.options with limit := .ok (some limit) } }
    | none => .error (.about .stepLimit ("invalid int value: " ++ quoted value))

def setMode (progress : Progress) (mode : Switch) : Except Refusal Progress :=
  match mode with
  | .parseOnly =>
    if progress.options.tree then .error (.conflict .parseOnly .tree)
    else .ok { progress with options := { progress.options with parseOnly := true } }
  | .tree =>
    if progress.options.parseOnly then .error (.conflict .tree .parseOnly)
    else .ok { progress with options := { progress.options with tree := true } }
  | _ => .ok progress

/-- The first word is the file. -/
def addWord (progress : Progress) (word : String) : Progress :=
  match progress.options.file with
  | none => { progress with options := { progress.options with file := some word } }
  | some _ => { progress with extra := progress.extra ++ [word] }

def addExtra (progress : Progress) (words : List String) : Progress :=
  { progress with extra := progress.extra ++ words }

/-- The words after two dashes. The dashes themselves are of use only where the file is next. -/
def addLast (progress : Progress) (words : List String) : Progress :=
  match progress.options.file, words with
  | none, [] => progress
  | none, file :: rest => (progress.addWord file).addExtra rest
  | some _, _ => progress.addExtra ("--" :: words)

end Progress

/-- Reads arguments in turn; `last` holds the words after two dashes, if those were given. -/
def readFrom (last : Option (List String)) (progress : Progress) :
    List Argument → Except Refusal Progress
  | [] => .ok (last.elim progress progress.addLast)
  | [.word text] =>
    match progress.options.file, last with
    | none, some words => .ok ((progress.addWord text).addExtra words)
    | _, _ => .ok (last.elim (progress.addWord text) (progress.addWord text).addLast)
  | .word text :: rest => readFrom last (progress.addWord text) rest
  | .unknown text :: rest => readFrom last (progress.addExtra [text]) rest
  | .shortHelpWith text :: _ => .error (shortHelp text)
  | .switch .help :: _ => .error .help
  | .switch .stepLimit :: .word value :: rest => do readFrom last (← progress.setLimit value) rest
  | .switch .stepLimit :: _ => .error (.about .stepLimit "expected one argument")
  | .switch mode :: rest => do readFrom last (← progress.setMode mode) rest
  | .switchWith .stepLimit value :: rest => do readFrom last (← progress.setLimit value) rest
  | .switchWith switch value :: _ => .error (.ignored switch value)

/-- The arguments before two dashes and, if those were given, the ones after. -/
def splitAtDashes : List String → List String × Option (List String)
  | [] => ([], none)
  | argument :: rest =>
    if argument = "--" then ([], some rest)
    else
      let (before, after) := splitAtDashes rest
      (argument :: before, after)

def readOptions (arguments : List String) : Except Refusal Options := do
  let (before, last) := splitAtDashes arguments
  let forms ← (before.mapM classify).mapError Refusal.misuse
  let progress ← readFrom last ⟨⟨none, .ok none, false, false⟩, []⟩ forms
  if progress.extra.isEmpty then return progress.options
  else throw (.misuse ("unrecognized arguments: " ++ " ".intercalate progress.extra))

end MonkeyLang.CommandLine
