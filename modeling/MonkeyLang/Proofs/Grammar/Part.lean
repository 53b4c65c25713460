import MonkeyLang.Proofs.Grammar.RoundTrip

/-!
The nodes of a program. Each part of a node that was read derives from some of the tokens, but for the
branch that a conditional may lack (`Part.inside`), so that any function in a program can be written
out and read on its own.
-/

namespace MonkeyLang.Grammar

open Token (fixed)

/-- A node that was read of some tokens, or the absence of one. -/
inductive Part : Node → Prop
  | missing : Part .missing
  | expression {tokens : List Token} {level : Level} {node : Node} (scanned : Scanned tokens)
      (derives : Derives tokens (.expression level node)) : Part node
  | block {tokens : List Token} {node : Node} (scanned : Scanned tokens)
      (derives : Derives tokens (.block node)) : Part node
  | statement {tokens : List Token} {node : Node} (scanned : Scanned tokens)
      (derives : Derives tokens (.statement node)) : Part node

/-- The parts of what a phrase stands for. -/
def Phrase.parts : Phrase → List Node
  | .expression _ node | .block node | .statement node => node.parts
  | .arguments nodes | .furtherArguments nodes | .statements nodes => nodes
  | .parameters names | .furtherParameters names => names.map .name

theorem part_name {token : Token} (lexical : token.Lexical) (kind : token.kind = .name) :
    Part (.name ⟨token, token.literal⟩) :=
  .expression (List.forall_mem_singleton.mpr lexical) (.name kind)

theorem part_pair {first second : Node} (left : Part first) (right : Part second) :
    ∀ part ∈ [first, second], Part part :=
  List.forall_mem_cons.mpr ⟨left, List.forall_mem_singleton.mpr right⟩

theorem Derives.parts {tokens : List Token} {phrase : Phrase} (derives : Derives tokens phrase)
    (scanned : Scanned tokens) : ∀ part ∈ phrase.parts, Part part := by
  induction derives with
  | tighter inner ih => exact ih scanned
  | binary operates first second =>
      obtain ⟨left, rest⟩ := scanned.of_append
      exact part_pair (.expression left first) (.expression rest.of_cons.2 second)
  | unary operates operand =>
      exact List.forall_mem_singleton.mpr (.expression scanned.of_cons.2 operand)
  | call opens closes first second ih ih' =>
      obtain ⟨callee, rest⟩ := scanned.of_append.1.of_append
      exact List.forall_mem_cons.mpr ⟨.expression callee first, ih' rest.of_cons.2⟩
  | name | number | affirmation | negation => exact nofun
  | group opens closes inner ih => exact ih scanned.of_append.1.of_cons.2
  | conditional starts opens closes tested chosen =>
      obtain ⟨front, rest⟩ := scanned.of_append
      exact List.forall_mem_cons.mpr ⟨.expression front.of_cons.2.of_cons.2 tested,
        part_pair (.block rest.of_cons.2 chosen) .missing⟩
  | alternative starts opens closes divides tested chosen otherwise =>
      obtain ⟨front, rest⟩ := scanned.of_append
      obtain ⟨front, middle⟩ := front.of_append
      exact List.forall_mem_cons.mpr ⟨.expression front.of_cons.2.of_cons.2 tested,
        part_pair (.block middle.of_cons.2 chosen) (.block rest.of_cons.2 otherwise)⟩
  | function starts opens closes parameters inner ih =>
      obtain ⟨front, rest⟩ := scanned.of_append
      exact List.forall_mem_append.mpr ⟨ih front.of_cons.2.of_cons.2,
        List.forall_mem_singleton.mpr (.block rest.of_cons.2 inner)⟩
  | noArguments | lastArgument | noParameters | lastParameter | noStatements => exact nofun
  | arguments initial further ih ih' =>
      obtain ⟨first, others⟩ := scanned.of_append
      exact List.forall_mem_cons.mpr ⟨.expression first initial, ih' others⟩
  | furtherArguments divides following further ih ih' =>
      obtain ⟨front, others⟩ := scanned.of_append
      exact List.forall_mem_cons.mpr ⟨.expression front.of_cons.2 following, ih' others⟩
  | parameters kind further ih =>
      obtain ⟨lexical, others⟩ := scanned.of_cons
      exact List.forall_mem_cons.mpr ⟨part_name lexical kind, ih others⟩
  | furtherParameters divides kind further ih =>
      obtain ⟨lexical, others⟩ := scanned.of_cons.2.of_cons
      exact List.forall_mem_cons.mpr ⟨part_name lexical kind, ih others⟩
  | block opens closes inner ih => exact ih scanned.of_append.1.of_cons.2
  | binding starts kind assigns value =>
      obtain ⟨lexical, rest⟩ := scanned.of_cons.2.of_cons
      exact part_pair (part_name lexical kind) (.expression rest.of_cons.2 value)
  | returning starts value =>
      exact List.forall_mem_singleton.mpr (.expression scanned.of_cons.2 value)
  | evaluation value => exact List.forall_mem_singleton.mpr (.expression scanned value)
  | ended ends initial further ih ih' =>
      obtain ⟨first, rest⟩ := scanned.of_append
      exact List.forall_mem_cons.mpr ⟨.statement first initial, ih' rest.of_cons.2⟩
  | unended separate initial further ih ih' =>
      obtain ⟨first, rest⟩ := scanned.of_append
      exact List.forall_mem_cons.mpr ⟨.statement first initial, ih' rest⟩

theorem Part.inside {whole part : Node} (read : Part whole) (member : part ∈ whole.parts) :
    Part part := by
  cases read with
  | missing => cases member
  | expression scanned derives => exact derives.parts scanned part member
  | block scanned derives => exact derives.parts scanned part member
  | statement scanned derives => exact derives.parts scanned part member

theorem Derives.function_keyword {tokens : List Token} {level : Level} {keyword : Token}
    {names : List Identifier} {body : Node}
    (derives : Derives tokens (.expression level (.function keyword names body)))
    (scanned : Scanned tokens) : keyword = fixed .fnWord := by
  generalize shape : Phrase.expression level (.function keyword names body) = phrase at derives
  induction derives generalizing level with
  | tighter inner ih =>
      cases shape
      exact ih scanned rfl
  | group opens closes inner ih =>
      cases shape
      exact ih scanned.of_append.1.of_cons.2 rfl
  | function starts =>
      cases shape
      exact scanned.of_append.1.of_cons.1.eq_fixed starts (by decide)
  | _ => cases shape

/-- A function is written with its keyword, and read of what is written. -/
theorem Part.function {keyword : Token} {names : List Identifier} {body : Node}
    (read : Part (.function keyword names body)) :
    keyword = fixed .fnWord ∧ Prints (.expression .primary (.function keyword names body)) := by
  cases read with
  | expression scanned derives => exact ⟨derives.function_keyword scanned, derives.prints scanned⟩
  | block scanned derives => cases derives
  | statement scanned derives => cases derives

end MonkeyLang.Grammar
