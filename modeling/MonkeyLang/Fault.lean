import MonkeyLang.Text.Utf8

/-!
What can stop the interpreter itself, as opposed to the program it runs: `Problem` is what a report
shows, `Fault` is everything that ends an action early.
-/

namespace MonkeyLang

inductive Problem where
  /-- A complaint in words; `internal` marks one that is no fault of the user's. -/
  | plain (text : String) (internal : Bool)
  /-- A source text that was not accepted, with one message for each mistake in it. -/
  | rejected (messages : List String) (source : String)
  deriving DecidableEq, Inhabited, Repr

namespace Problem

def message : Problem → String
  | plain text _ => text
  | rejected messages _ => "; ".intercalate messages

def isInternal : Problem → Bool
  | plain _ internal => internal
  | rejected .. => false

end Problem

inductive Fault where
  | problem (complaint : Problem)
  | interrupted
  | exit (code : String)
  | tooDeep
  /-- An integer has more digits than may be written. -/
  | unwritableInteger
  /-- A file's path holds the null character. -/
  | unusablePath
  | undecodable (bytes : Text.BadBytes)
  /-- The limit of nodes is not a number. -/
  | unusableLimit
  /-- A session has no result left to take. -/
  | noResult
  | other (kind text : String)
  deriving DecidableEq, Inhabited, Repr

namespace Fault

/-- The kind of a fault, by its name in reports. -/
def kind : Fault → String
  | .problem (.plain ..) => "MonkeyError"
  | .problem (.rejected ..) => "ParseError"
  | .interrupted => "KeyboardInterrupt"
  | .exit _ => "SystemExit"
  | .tooDeep => "RecursionError"
  | .unwritableInteger | .unusablePath => "ValueError"
  | .undecodable _ => "UnicodeDecodeError"
  | .unusableLimit => "TypeError"
  | .noResult => "IndexError"
  | .other kind _ => kind

def text : Fault → String
  | .problem complaint => complaint.message
  | .interrupted => ""
  | .exit code => code
  | .tooDeep => "maximum recursion depth exceeded"
  | .unwritableInteger =>
    "Exceeds the limit (4300 digits) for integer string conversion; " ++
      "use sys.set_int_max_str_digits() to increase the limit"
  | .unusablePath => "embedded null byte"
  | .undecodable bytes => bytes.message
  | .unusableLimit => "'>' not supported between instances of 'int' and 'list'"
  | .noResult => "pop from empty list"
  | .other _ text => text

end Fault

end MonkeyLang
