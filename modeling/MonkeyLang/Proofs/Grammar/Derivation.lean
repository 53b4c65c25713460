import MonkeyLang.Node
import MonkeyLang.Proofs.Grammar.Level
import MonkeyLang.Proofs.Numeral

/-!
The grammar of programs, stated without a way to read one: which trees a list of tokens derives.
-/

namespace MonkeyLang.Grammar

open Token (Kind)

/-- The parts of a program that tokens derive, each with what they stand for. -/
inductive Phrase where
  | expression (level : Level) (node : Node)
  | arguments (nodes : List Node)
  | furtherArguments (nodes : List Node)
  | parameters (names : List Identifier)
  | furtherParameters (names : List Identifier)
  | block (node : Node)
  | statement (node : Node)
  | statements (nodes : List Node)

/-- The next token does not continue the expression before it. -/
def Separate (rest : List Token) : Prop :=
  ∀ token ∈ rest.head?, token.kind ≠ .minus ∧ token.kind ≠ .openParen

inductive Derives : List Token → Phrase → Prop
  | tighter {tokens : List Token} {level : Level} {node : Node}
      (inner : Derives tokens (.expression level.tighter node)) :
      Derives tokens (.expression level node)
  | binary {operator : Token} {level : Level} (operates : operator.kind ∈ level.operators)
      {left right : List Token} {leftNode rightNode : Node}
      (first : Derives left (.expression level leftNode))
      (second : Derives right (.expression level.tighter rightNode)) :
      Derives (left ++ operator :: right)
        (.expression level (.binary operator leftNode operator.literal rightNode))
  | unary {operator : Token} (operates : operator.kind = .minus ∨ operator.kind = .bang)
      {tokens : List Token} {node : Node} (operand : Derives tokens (.expression .unary node)) :
      Derives (operator :: tokens) (.expression .unary (.unary operator operator.literal node))
  | call {opening closing : Token} (opens : opening.kind = .openParen)
      (closes : closing.kind = .closeParen) {callee given : List Token} {node : Node}
      {nodes : List Node} (first : Derives callee (.expression .call node))
      (second : Derives given (.arguments nodes)) :
      Derives (callee ++ opening :: given ++ [closing])
        (.expression .call (.call opening node nodes))
  | name {token : Token} (kind : token.kind = .name) :
      Derives [token] (.expression .primary (.name ⟨token, token.literal⟩))
  | number {token : Token} (kind : token.kind = .number) (nonempty : token.literal.toList ≠ [])
      (digits : ∀ c ∈ token.literal.toList, Token.isDigit c)
      (bound : token.literal.toList.length ≤ Numeral.digitLimit) :
      Derives [token]
        (.expression .primary (.number token (Numeral.decimal token.literal.toList)))
  | affirmation {token : Token} (kind : token.kind = .trueWord) :
      Derives [token] (.expression .primary (.truth token true))
  | negation {token : Token} (kind : token.kind = .falseWord) :
      Derives [token] (.expression .primary (.truth token false))
  | group {opening closing : Token} (opens : opening.kind = .openParen)
      (closes : closing.kind = .closeParen) {tokens : List Token} {node : Node}
      (inner : Derives tokens (.expression .equality node)) :
      Derives (opening :: tokens ++ [closing]) (.expression .primary node)
  | conditional {keyword opening closing : Token} (starts : keyword.kind = .ifWord)
      (opens : opening.kind = .openParen) (closes : closing.kind = .closeParen)
      {condition consequence : List Token} {first second : Node}
      (tested : Derives condition (.expression .equality first))
      (chosen : Derives consequence (.block second)) :
      Derives (keyword :: opening :: condition ++ closing :: consequence)
        (.expression .primary (.conditional keyword first second .missing))
  | alternative {keyword opening closing divider : Token} (starts : keyword.kind = .ifWord)
      (opens : opening.kind = .openParen) (closes : closing.kind = .closeParen)
      (divides : divider.kind = .elseWord) {condition consequence alternative : List Token}
      {first second third : Node} (tested : Derives condition (.expression .equality first))
      (chosen : Derives consequence (.block second))
      (otherwise : Derives alternative (.block third)) :
      Derives (keyword :: opening :: condition ++ closing :: consequence ++ divider :: alternative)
        (.expression .primary (.conditional keyword first second third))
  | function {keyword opening closing : Token} (starts : keyword.kind = .fnWord)
      (opens : opening.kind = .openParen) (closes : closing.kind = .closeParen)
      {named body : List Token} {names : List Identifier} {node : Node}
      (parameters : Derives named (.parameters names)) (inner : Derives body (.block node)) :
      Derives (keyword :: opening :: named ++ closing :: body)
        (.expression .primary (.function keyword names node))
  | noArguments : Derives [] (.arguments [])
  | arguments {first others : List Token} {node : Node} {nodes : List Node}
      (initial : Derives first (.expression .equality node))
      (further : Derives others (.furtherArguments nodes)) :
      Derives (first ++ others) (.arguments (node :: nodes))
  | lastArgument : Derives [] (.furtherArguments [])
  | furtherArguments {comma : Token} (divides : comma.kind = .comma) {next others : List Token}
      {node : Node} {nodes : List Node} (following : Derives next (.expression .equality node))
      (further : Derives others (.furtherArguments nodes)) :
      Derives (comma :: next ++ others) (.furtherArguments (node :: nodes))
  | noParameters : Derives [] (.parameters [])
  | parameters {first : Token} (kind : first.kind = .name) {others : List Token}
      {names : List Identifier} (further : Derives others (.furtherParameters names)) :
      Derives (first :: others) (.parameters (⟨first, first.literal⟩ :: names))
  | lastParameter : Derives [] (.furtherParameters [])
  | furtherParameters {comma next : Token} (divides : comma.kind = .comma)
      (kind : next.kind = .name) {others : List Token} {names : List Identifier}
      (further : Derives others (.furtherParameters names)) :
      Derives (comma :: next :: others) (.furtherParameters (⟨next, next.literal⟩ :: names))
  | block {opening closing : Token} (opens : opening.kind = .openBrace)
      (closes : closing.kind = .closeBrace) {tokens : List Token} {nodes : List Node}
      (inner : Derives tokens (.statements nodes)) :
      Derives (opening :: tokens ++ [closing]) (.block (.block opening nodes))
  | binding {keyword target sign : Token} (starts : keyword.kind = .letWord)
      (kind : target.kind = .name) (assigns : sign.kind = .assign) {tokens : List Token}
      {node : Node} (value : Derives tokens (.expression .equality node)) :
      Derives (keyword :: target :: sign :: tokens)
        (.statement (.binding keyword ⟨target, target.literal⟩ node))
  | returning {keyword : Token} (starts : keyword.kind = .returnWord) {tokens : List Token}
      {node : Node} (value : Derives tokens (.expression .equality node)) :
      Derives (keyword :: tokens) (.statement (.returning keyword node))
  | evaluation {token : Token} {tokens : List Token} {node : Node}
      (value : Derives (token :: tokens) (.expression .equality node)) :
      Derives (token :: tokens) (.statement (.statement token node))
  | noStatements : Derives [] (.statements [])
  | ended {semicolon : Token} (ends : semicolon.kind = .semicolon) {first rest : List Token}
      {node : Node} {nodes : List Node} (initial : Derives first (.statement node))
      (further : Derives rest (.statements nodes)) :
      Derives (first ++ semicolon :: rest) (.statements (node :: nodes))
  | unended {first rest : List Token} (separate : Separate rest) {node : Node} {nodes : List Node}
      (initial : Derives first (.statement node)) (further : Derives rest (.statements nodes)) :
      Derives (first ++ rest) (.statements (node :: nodes))

/-- What derives at a level derives at every level that binds less tightly. -/
theorem Derives.loosen {tokens : List Token} {node : Node} {level target : Level}
    (bound : target.rank ≤ level.rank) (derives : Derives tokens (.expression level node)) :
    Derives tokens (.expression target node) := by
  generalize distance : level.rank - target.rank = steps
  induction steps generalizing target with
  | zero =>
      have same : target = level := Level.rank_inj (by omega)
      rw [same]
      exact derives
  | succ steps ih =>
      have next : target.tighter.rank = target.rank + 1 := by
        cases target <;> first | rfl | (cases level <;> simp [Level.rank] at distance)
      exact .tighter (ih (by omega) (by omega))

/-- The kinds an expression starts with. -/
def starters : List Kind :=
  [.name, .number, .trueWord, .falseWord, .minus, .bang, .openParen, .ifWord, .fnWord]

theorem Derives.starts {tokens : List Token} {level : Level} {node : Node}
    (derives : Derives tokens (.expression level node)) :
    ∃ token rest, tokens = token :: rest ∧ token.kind ∈ starters := by
  generalize shape : Phrase.expression level node = phrase at derives
  induction derives generalizing level node with
  | tighter inner ih => exact ih rfl
  | binary operates first second ih =>
      obtain ⟨token, rest, rfl, starts⟩ := ih rfl
      exact ⟨token, _, rfl, starts⟩
  | call opens closes first second ih =>
      obtain ⟨token, rest, rfl, starts⟩ := ih rfl
      exact ⟨token, _, rfl, starts⟩
  | unary operates =>
      refine ⟨_, _, rfl, ?_⟩
      rcases operates with kind | kind <;> simp [starters, kind]
  | name kind => exact ⟨_, _, rfl, by simp [starters, kind]⟩
  | number kind => exact ⟨_, _, rfl, by simp [starters, kind]⟩
  | affirmation kind => exact ⟨_, _, rfl, by simp [starters, kind]⟩
  | negation kind => exact ⟨_, _, rfl, by simp [starters, kind]⟩
  | group opens => exact ⟨_, _, rfl, by simp [starters, opens]⟩
  | conditional starts => exact ⟨_, _, rfl, by simp [starters, starts]⟩
  | alternative starts => exact ⟨_, _, rfl, by simp [starters, starts]⟩
  | function starts => exact ⟨_, _, rfl, by simp [starters, starts]⟩
  | _ => cases shape

theorem Derives.statement_starts {tokens : List Token} {node : Node}
    (derives : Derives tokens (.statement node)) :
    ∃ token rest, tokens = token :: rest ∧ token.kind ∈ .letWord :: .returnWord :: starters := by
  cases derives with
  | binding starts => exact ⟨_, _, rfl, by simp [starts]⟩
  | returning starts => exact ⟨_, _, rfl, by simp [starts]⟩
  | @evaluation token tokens node value =>
      obtain ⟨first, rest, shape, starts⟩ := value.starts
      cases shape
      exact ⟨_, _, rfl, List.mem_cons_of_mem _ (List.mem_cons_of_mem _ starts)⟩

theorem Derives.block_starts {tokens : List Token} {node : Node}
    (derives : Derives tokens (.block node)) (rest : List Token) :
    upcoming (tokens ++ rest) = .openBrace := by
  cases derives with
  | block opens => exact opens

theorem Derives.present {tokens : List Token} {node : Node}
    (derives : Derives tokens (.block node)) : node.isMissing = false := by
  cases derives
  rfl

end MonkeyLang.Grammar
