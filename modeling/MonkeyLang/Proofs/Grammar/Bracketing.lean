import MonkeyLang.Proofs.Grammar.Acceptance
import MonkeyLang.Proofs.Text.Bracket
import MonkeyLang.Proofs.Token.Joined

/-!
The brackets of a program. Each bracket of a text is a token of its own, and every phrase of the grammar
closes the brackets that it opens; so a source that is read without a mistake is bracketed.
-/

namespace MonkeyLang

namespace Token

open Text (Bracketed Plain plain_of_apart)

/-- The texts of tokens, with nothing between them. -/
def spelled (tokens : List Token) : List Char := tokens.flatMap (·.literal.toList)

theorem spelled_append (first second : List Token) :
    spelled (first ++ second) = spelled first ++ spelled second :=
  List.flatMap_append

theorem spelled_cons (token : Token) (rest : List Token) :
    spelled (token :: rest) = token.literal.toList ++ spelled rest :=
  List.flatMap_cons

def brackets : List Kind := [.openParen, .closeParen, .openBrace, .closeBrace]

theorem Lexical.plain {token : Token} (lexical : token.Lexical) (other : token.kind ∉ brackets) :
    ∀ c ∈ token.literal.toList, Plain c := by
  cases lexical with
  | symbol found =>
      rw [String.toList_ofList, List.forall_mem_singleton]
      unfold symbolKind? at found
      split at found <;> cases found <;> first | decide | exact absurd (by decide) other
  | pair found =>
      rw [String.toList_ofList, List.forall_mem_cons, List.forall_mem_singleton]
      rcases pairKind?_cases found with ⟨rfl, rfl⟩ | ⟨rfl, rfl⟩ <;> decide
  | @word c letters initial others =>
      rw [String.toList_ofList]
      have inside : ∀ d ∈ c :: letters, isLetter d := List.forall_mem_cons.mpr ⟨initial, others⟩
      exact fun d member => plain_of_apart (by decide) (inside d member)
  | @number c digits initial others =>
      rw [String.toList_ofList]
      have inside : ∀ d ∈ c :: digits, isDigit d := List.forall_mem_cons.mpr ⟨initial, others⟩
      exact fun d member => plain_of_apart (by decide) (inside d member)
  | @illegal c shown symbol letter digit =>
      have unlisted : (symbolKind? c).isNone := by rw [symbol]; rfl
      rw [String.toList_ofList]
      exact List.forall_mem_singleton.mpr
        (plain_of_apart (p := fun d => (symbolKind? d).isNone) (by decide) unlisted)

/-- Layout has no brackets, so those of a text are those of its tokens. -/
theorem unclosed_scan (awaited text : List Char) :
    Text.unclosed awaited (spelled (scan text)) = Text.unclosed awaited text := by
  induction text using scan_induction generalizing awaited with
  | nil =>
      rw [scan_nil]
      rfl
  | layout c rest layout ih =>
      rw [scan_layout layout, ih, Text.unclosed_cons,
        Text.meet_plain (plain_of_apart (by decide) layout)]
      rfl
  | read c rest shown ih =>
      rw [scan_read shown, spelled_cons]
      conv => rhs; rw [← read_literal c rest]
      rw [Text.unclosed_append, Text.unclosed_append]
      exact congrArg _ (funext ih)

theorem bracketed_append {first second : List Token} (bracketed : Bracketed (spelled first))
    (bracketed' : Bracketed (spelled second)) : Bracketed (spelled (first ++ second)) := by
  rw [spelled_append]
  exact bracketed.append bracketed'

theorem bracketed_cons {token : Token} (lexical : token.Lexical) {kind : Kind}
    (same : token.kind = kind) (other : kind ∉ brackets) {rest : List Token}
    (bracketed : Bracketed (spelled rest)) : Bracketed (spelled (token :: rest)) := by
  rw [← same] at other
  rw [spelled_cons]
  exact (Text.bracketed_plain (lexical.plain other)).append bracketed

/-- The tokens that open and close a pair of brackets. -/
inductive Pair : Token → Token → Prop
  | parens : Pair (fixed .openParen) (fixed .closeParen)
  | braces : Pair (fixed .openBrace) (fixed .closeBrace)

theorem pair_parens {opening closing : Token} (lexical : opening.Lexical)
    (opens : opening.kind = .openParen) (lexical' : closing.Lexical)
    (closes : closing.kind = .closeParen) : Pair opening closing := by
  rw [lexical.eq_fixed opens (by decide), lexical'.eq_fixed closes (by decide)]
  exact .parens

theorem pair_braces {opening closing : Token} (lexical : opening.Lexical)
    (opens : opening.kind = .openBrace) (lexical' : closing.Lexical)
    (closes : closing.kind = .closeBrace) : Pair opening closing := by
  rw [lexical.eq_fixed opens (by decide), lexical'.eq_fixed closes (by decide)]
  exact .braces

theorem bracketed_pair {opening closing : Token} (pair : Pair opening closing)
    {inside : List Token} (bracketed : Bracketed (spelled inside)) :
    Bracketed (spelled (opening :: inside ++ [closing])) := by
  rw [spelled_append, spelled_cons]
  cases pair with
  | parens =>
      have found : Text.closer? '(' = some ')' := rfl
      exact bracketed.enclosed found
  | braces =>
      have found : Text.closer? '{' = some '}' := rfl
      exact bracketed.enclosed found

/-- A pair of brackets before something else. -/
theorem bracketed_pair_append {opening closing : Token} (pair : Pair opening closing)
    {inside rest : List Token} (bracketed : Bracketed (spelled inside))
    (bracketed' : Bracketed (spelled rest)) :
    Bracketed (spelled (opening :: inside ++ closing :: rest)) := by
  have shape : opening :: inside ++ closing :: rest = opening :: inside ++ [closing] ++ rest := by
    simp
  rw [shape]
  exact bracketed_append (bracketed_pair pair bracketed) bracketed'

end Token

namespace Grammar

open Text (Bracketed)
open Token (brackets spelled bracketed_append bracketed_cons bracketed_pair bracketed_pair_append
  pair_braces pair_parens)

theorem Level.operators_apart {level : Level} {kind : Token.Kind} (operates : kind ∈ level.operators) :
    kind ∉ brackets := by
  cases level <;> revert kind <;> decide

/-- Every phrase closes the brackets that it opens, and no others. -/
theorem Derives.bracketed {tokens : List Token} {phrase : Phrase} (derives : Derives tokens phrase)
    (scanned : Scanned tokens) : Bracketed (spelled tokens) := by
  induction derives with
  | tighter inner ih => exact ih scanned
  | binary operates first second ih ih' =>
      obtain ⟨left, rest⟩ := scanned.of_append
      exact bracketed_append (ih left)
        (bracketed_cons rest.of_cons.1 rfl (Level.operators_apart operates) (ih' rest.of_cons.2))
  | unary operates operand ih =>
      obtain ⟨lexical, rest⟩ := scanned.of_cons
      rcases operates with kind | kind <;> exact bracketed_cons lexical kind (by decide) (ih rest)
  | call opens closes first second ih ih' =>
      obtain ⟨front, last⟩ := scanned.of_append
      obtain ⟨callee, rest⟩ := front.of_append
      rw [List.append_assoc]
      exact bracketed_append (ih callee)
        (bracketed_pair (pair_parens rest.of_cons.1 opens last.of_cons.1 closes)
          (ih' rest.of_cons.2))
  | name kind => exact bracketed_cons scanned.of_cons.1 kind (by decide) rfl
  | number kind => exact bracketed_cons scanned.of_cons.1 kind (by decide) rfl
  | affirmation kind => exact bracketed_cons scanned.of_cons.1 kind (by decide) rfl
  | negation kind => exact bracketed_cons scanned.of_cons.1 kind (by decide) rfl
  | group opens closes inner ih =>
      obtain ⟨front, last⟩ := scanned.of_append
      exact bracketed_pair (pair_parens front.of_cons.1 opens last.of_cons.1 closes)
        (ih front.of_cons.2)
  | conditional starts opens closes tested chosen ih ih' =>
      obtain ⟨front, rest⟩ := scanned.of_append
      obtain ⟨lexical, front⟩ := front.of_cons
      exact bracketed_cons lexical starts (by decide)
        (bracketed_pair_append (pair_parens front.of_cons.1 opens rest.of_cons.1 closes)
          (ih front.of_cons.2) (ih' rest.of_cons.2))
  | alternative starts opens closes divides tested chosen otherwise ih ih' ih'' =>
      obtain ⟨front, last⟩ := scanned.of_append
      obtain ⟨front, rest⟩ := front.of_append
      obtain ⟨lexical, front⟩ := front.of_cons
      have head := bracketed_cons lexical starts (by decide)
        (bracketed_pair_append (pair_parens front.of_cons.1 opens rest.of_cons.1 closes)
          (ih front.of_cons.2) (ih' rest.of_cons.2))
      exact bracketed_append head
        (bracketed_cons last.of_cons.1 divides (by decide) (ih'' last.of_cons.2))
  | function starts opens closes parameters inner ih ih' =>
      obtain ⟨front, rest⟩ := scanned.of_append
      obtain ⟨lexical, front⟩ := front.of_cons
      exact bracketed_cons lexical starts (by decide)
        (bracketed_pair_append (pair_parens front.of_cons.1 opens rest.of_cons.1 closes)
          (ih front.of_cons.2) (ih' rest.of_cons.2))
  | noArguments => rfl
  | arguments initial further ih ih' =>
      obtain ⟨first, others⟩ := scanned.of_append
      exact bracketed_append (ih first) (ih' others)
  | lastArgument => rfl
  | furtherArguments divides following further ih ih' =>
      obtain ⟨front, others⟩ := scanned.of_append
      exact bracketed_append
        (bracketed_cons front.of_cons.1 divides (by decide) (ih front.of_cons.2)) (ih' others)
  | noParameters => rfl
  | parameters kind further ih =>
      exact bracketed_cons scanned.of_cons.1 kind (by decide) (ih scanned.of_cons.2)
  | lastParameter => rfl
  | furtherParameters divides kind further ih =>
      obtain ⟨lexical, rest⟩ := scanned.of_cons
      exact bracketed_cons lexical divides (by decide)
        (bracketed_cons rest.of_cons.1 kind (by decide) (ih rest.of_cons.2))
  | block opens closes inner ih =>
      obtain ⟨front, last⟩ := scanned.of_append
      exact bracketed_pair (pair_braces front.of_cons.1 opens last.of_cons.1 closes)
        (ih front.of_cons.2)
  | binding starts kind assigns value ih =>
      obtain ⟨lexical, rest⟩ := scanned.of_cons
      obtain ⟨lexical', rest⟩ := rest.of_cons
      exact bracketed_cons lexical starts (by decide) (bracketed_cons lexical' kind (by decide)
        (bracketed_cons rest.of_cons.1 assigns (by decide) (ih rest.of_cons.2)))
  | returning starts value ih =>
      exact bracketed_cons scanned.of_cons.1 starts (by decide) (ih scanned.of_cons.2)
  | evaluation value ih => exact ih scanned
  | noStatements => rfl
  | ended ends initial further ih ih' =>
      obtain ⟨first, rest⟩ := scanned.of_append
      exact bracketed_append (ih first)
        (bracketed_cons rest.of_cons.1 ends (by decide) (ih' rest.of_cons.2))
  | unended separate initial further ih ih' =>
      obtain ⟨first, rest⟩ := scanned.of_append
      exact bracketed_append (ih first) (ih' rest)

theorem bracketed_of_accepted {depth : Nat} {source : String}
    (accepted : (readText depth source).mistakes = []) : Bracketed source.toList := by
  obtain ⟨nodes, _, derives⟩ := derives_of_clean accepted
  have bracketed := derives.bracketed (.scan source.toList)
  exact (Token.unclosed_scan [] source.toList).symm.trans bracketed

end Grammar

end MonkeyLang
