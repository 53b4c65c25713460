import MonkeyLang.Text.Quoted

/-!
Tokens: the words of a program, each with its kind and the text it was read from.
-/

namespace MonkeyLang

namespace Token

inductive Kind where
  | illegal
  | endOfInput
  | name
  | number
  | assign
  | plus
  | minus
  | bang
  | asterisk
  | slash
  | less
  | greater
  | equal
  | unequal
  | comma
  | semicolon
  | openParen
  | closeParen
  | openBrace
  | closeBrace
  | fnWord
  | letWord
  | trueWord
  | falseWord
  | ifWord
  | elseWord
  | returnWord
  deriving DecidableEq, Repr

namespace Kind

def all : List Kind := [
  illegal, endOfInput, name, number, assign, plus, minus, bang, asterisk, slash, less, greater,
  equal, unequal, comma, semicolon, openParen, closeParen, openBrace, closeBrace, fnWord, letWord,
  trueWord, falseWord, ifWord, elseWord, returnWord]

/-- The name of a kind in messages. -/
def label : Kind → String
  | illegal => "ILLEGAL"
  | endOfInput => "EOF"
  | name => "IDENT"
  | number => "INT"
  | assign => "ASSIGN"
  | plus => "PLUS"
  | minus => "MINUS"
  | bang => "BANG"
  | asterisk => "ASTERISK"
  | slash => "SLASH"
  | less => "LT"
  | greater => "GT"
  | equal => "EQ"
  | unequal => "NOT_EQ"
  | comma => "COMMA"
  | semicolon => "SEMICOLON"
  | openParen => "LPAREN"
  | closeParen => "RPAREN"
  | openBrace => "LBRACE"
  | closeBrace => "RBRACE"
  | fnWord => "FUNCTION"
  | letWord => "LET"
  | trueWord => "TRUE"
  | falseWord => "FALSE"
  | ifWord => "IF"
  | elseWord => "ELSE"
  | returnWord => "RETURN"

/-- The symbol of a kind that is always written the same way, else its label. -/
def symbol : Kind → String
  | assign => "="
  | plus => "+"
  | minus => "-"
  | bang => "!"
  | asterisk => "*"
  | slash => "/"
  | less => "<"
  | greater => ">"
  | equal => "=="
  | unequal => "!="
  | comma => ","
  | semicolon => ";"
  | openParen => "("
  | closeParen => ")"
  | openBrace => "\x7b"
  | closeBrace => "\x7d"
  | kind => kind.label

def ofLabel? (text : String) : Option Kind := all.find? (·.label = text)

/-- The kind of a word: reserved, or a name. -/
def ofWord : String → Kind
  | "fn" => fnWord
  | "let" => letWord
  | "true" => trueWord
  | "false" => falseWord
  | "if" => ifWord
  | "else" => elseWord
  | "return" => returnWord
  | _ => name

theorem ofWord_ne (word : String) : ofWord word ≠ endOfInput := by
  unfold ofWord
  split <;> simp

end Kind

end Token

structure Token where
  kind : Token.Kind
  literal : String
  deriving DecidableEq, Repr

namespace Token

/-- What every read past the last token gives. -/
def sentinel : Token := ⟨.endOfInput, ""⟩

def describe (token : Token) : String :=
  token.kind.label ++ "(" ++ Text.quoted token.literal ++ ")"

end Token

end MonkeyLang
