import MonkeyLang.Proofs.Grammar.Soundness

/-!
Trees that can be run. Whatever is read of a text, which may have mistakes, is a tree in which nothing
is missing but the second branch of a conditional and every operator is one of the language
(`readText_formed`).
-/

namespace MonkeyLang

namespace Node

def unaryOperators : List String := ["!", "-"]

def binaryOperators : List String := ["+", "-", "*", "/", "<", ">", "==", "!="]

/-- Nothing is missing, except where a conditional has one branch, and the operators are known. -/
inductive Formed : Node → Prop
  | program {statements : List Node} (inner : ∀ node ∈ statements, Formed node) :
      Formed (.program statements)
  | binding {token : Token} {target : Identifier} {value : Node} (inner : Formed value) :
      Formed (.binding token target value)
  | returning {token : Token} {value : Node} (inner : Formed value) :
      Formed (.returning token value)
  | statement {token : Token} {expression : Node} (inner : Formed expression) :
      Formed (.statement token expression)
  | block {token : Token} {statements : List Node} (inner : ∀ node ∈ statements, Formed node) :
      Formed (.block token statements)
  | name {identifier : Identifier} : Formed (.name identifier)
  | number {token : Token} {value : Int} : Formed (.number token value)
  | truth {token : Token} {value : Bool} : Formed (.truth token value)
  | unary {token : Token} {operator : String} {operand : Node}
      (known : operator ∈ unaryOperators) (inner : Formed operand) :
      Formed (.unary token operator operand)
  | binary {token : Token} {left right : Node} {operator : String}
      (known : operator ∈ binaryOperators) (first : Formed left) (second : Formed right) :
      Formed (.binary token left operator right)
  | conditional {token : Token} {condition consequence : Node} (tested : Formed condition)
      (chosen : Formed consequence) :
      Formed (.conditional token condition consequence .missing)
  | alternative {token : Token} {condition consequence alternative : Node}
      (tested : Formed condition) (chosen : Formed consequence) (otherwise : Formed alternative) :
      Formed (.conditional token condition consequence alternative)
  | function {token : Token} {parameters : List Identifier} {body : Node} (inner : Formed body) :
      Formed (.function token parameters body)
  | call {token : Token} {callee : Node} {arguments : List Node} (target : Formed callee)
      (given : ∀ node ∈ arguments, Formed node) : Formed (.call token callee arguments)

end Node

namespace Grammar

open Token (Kind)

def Phrase.Formed : Phrase → Prop
  | .expression _ node | .block node | .statement node => node.Formed
  | .arguments nodes | .furtherArguments nodes | .statements nodes => ∀ node ∈ nodes, node.Formed
  | .parameters _ | .furtherParameters _ => True

theorem known_unary {operator : Token} (lexical : operator.Lexical)
    (operates : operator.kind = .minus ∨ operator.kind = .bang) :
    operator.literal ∈ Node.unaryOperators := by
  rcases operates with kind | kind
  · rw [lexical.eq_fixed kind (by decide)]
    decide
  · rw [lexical.eq_fixed kind (by decide)]
    decide

theorem known_binary {operator : Token} {level : Level} (lexical : operator.Lexical)
    (operates : operator.kind ∈ level.operators) : operator.literal ∈ Node.binaryOperators := by
  have spelled : ∀ kind ∈ level.operators,
      kind ∉ [.name, .number, .illegal] ∧ kind.spelling ∈ Node.binaryOperators := by
    cases level <;> decide
  obtain ⟨reserved, known⟩ := spelled operator.kind operates
  rw [lexical.literal_eq reserved]
  exact known

theorem Derives.formed {tokens : List Token} {phrase : Phrase} (derives : Derives tokens phrase)
    (scanned : Scanned tokens) : phrase.Formed := by
  induction derives with
  | tighter inner ih => exact ih scanned
  | binary operates first second ih ih' =>
      obtain ⟨left, rest⟩ := scanned.of_append
      exact .binary (known_binary rest.of_cons.1 operates) (ih left) (ih' rest.of_cons.2)
  | unary operates operand ih =>
      exact .unary (known_unary scanned.of_cons.1 operates) (ih scanned.of_cons.2)
  | call opens closes first second ih ih' =>
      obtain ⟨callee, rest⟩ := scanned.of_append.1.of_append
      exact .call (ih callee) (ih' rest.of_cons.2)
  | name kind => exact .name
  | number kind nonempty digits bound => exact .number
  | affirmation kind => exact .truth
  | negation kind => exact .truth
  | group opens closes inner ih => exact ih scanned.of_append.1.of_cons.2
  | conditional starts opens closes tested chosen ih ih' =>
      obtain ⟨front, rest⟩ := scanned.of_append
      exact .conditional (ih front.of_cons.2.of_cons.2) (ih' rest.of_cons.2)
  | alternative starts opens closes divides tested chosen otherwise ih ih' ih'' =>
      obtain ⟨front, rest⟩ := scanned.of_append
      obtain ⟨front, middle⟩ := front.of_append
      exact .alternative (ih front.of_cons.2.of_cons.2) (ih' middle.of_cons.2)
        (ih'' rest.of_cons.2)
  | function starts opens closes parameters inner ih ih' =>
      exact .function (ih' scanned.of_append.2.of_cons.2)
  | noArguments | lastArgument | noStatements => exact nofun
  | arguments initial further ih ih' =>
      obtain ⟨first, others⟩ := scanned.of_append
      exact List.forall_mem_cons.mpr ⟨ih first, ih' others⟩
  | furtherArguments divides following further ih ih' =>
      obtain ⟨front, others⟩ := scanned.of_append
      exact List.forall_mem_cons.mpr ⟨ih front.of_cons.2, ih' others⟩
  | noParameters | parameters | lastParameter | furtherParameters => trivial
  | block opens closes inner ih => exact .block (ih scanned.of_append.1.of_cons.2)
  | binding starts kind assigns value ih =>
      exact .binding (ih scanned.of_cons.2.of_cons.2.of_cons.2)
  | returning starts value ih => exact .returning (ih scanned.of_cons.2)
  | evaluation value ih => exact .statement (ih scanned)
  | ended ends initial further ih ih' =>
      obtain ⟨first, rest⟩ := scanned.of_append
      exact List.forall_mem_cons.mpr ⟨ih first, ih' rest.of_cons.2⟩
  | unended separate initial further ih ih' =>
      obtain ⟨first, rest⟩ := scanned.of_append
      exact List.forall_mem_cons.mpr ⟨ih first, ih' rest⟩

/-- What is read of a text can be run, whatever mistakes the text has. -/
theorem readText_formed (depth : Nat) (source : String) :
    (readText depth source).program.Formed := by
  obtain ⟨nodes, used, shape, derives, lexical, _⟩ := sound_readTokens depth (.scan source.toList)
  have program : (readText depth source).program = .program nodes := shape
  rw [program]
  exact .program (derives.formed lexical)

end Grammar

end MonkeyLang
