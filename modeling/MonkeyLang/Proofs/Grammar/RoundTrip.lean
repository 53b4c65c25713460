import MonkeyLang.Proofs.Grammar.Acceptance
import MonkeyLang.Proofs.Node.Unmarked

/-!
Reading the canonical text of what was read gives it back. The text of each phrase is read as tokens
that derive the phrase again, on the level of calls: operators are written in parentheses.
-/

namespace MonkeyLang.Grammar

open Token (Kind Edge edge_cons fixed scan scan_closeParen scan_openParen scan_space
  scan_spaced)
open Node (text texts unmarkedAll)

/-- Text that is read as given tokens before every edge. -/
def Scans (written : String) (tokens : List Token) : Prop :=
  ∀ {rest : List Char}, Edge rest → scan (written.toList ++ rest) = tokens ++ scan rest

theorem scans_literal {token : Token} (lexical : token.Lexical) : Scans token.literal [token] :=
  fun edge => Token.scan_literal lexical edge

/-- In parentheses a text is read as it is on its own. -/
theorem Scans.enclosed {written : String} {tokens : List Token} (scans : Scans written tokens)
    (rest : List Char) :
    scan ('(' :: (written.toList ++ ')' :: rest)) =
      fixed .openParen :: (tokens ++ fixed .closeParen :: scan rest) := by
  rw [scan_openParen, scans (edge_cons (by decide) _), scan_closeParen]

theorem Scans.spaced {written : String} {tokens : List Token} (scans : Scans written tokens)
    (rest : List Char) : scan (written.toList ++ ' ' :: rest) = tokens ++ scan rest := by
  rw [scans (edge_cons (by decide) _), scan_space]

theorem Scans.alone {written : String} {tokens : List Token} (scans : Scans written tokens) :
    scan written.toList = tokens :=
  calc
    scan written.toList = scan (written.toList ++ []) := by rw [List.append_nil]
    _ = tokens ++ scan [] := scans Token.edge_nil
    _ = tokens := by rw [Token.scan_nil, List.append_nil]

/-- The text of an expression does not start with an equals sign. -/
theorem Scans.not_equals {written : String} {tokens : List Token} {level : Level} {node : Node}
    (scans : Scans written tokens) (derives : Derives tokens (.expression level node))
    (rest : List Char) : (written.toList ++ rest).head? ≠ some '=' := by
  obtain ⟨token, others, rfl, starts⟩ := derives.starts
  have read := scans.alone
  cases shape : written.toList with
  | nil =>
      rw [shape, Token.scan_nil] at read
      cases read
  | cons c more =>
      rw [shape] at read
      intro equals
      cases equals
      rw [Token.scan_read (by decide)] at read
      rw [← (List.cons.inj read).1] at starts
      rcases Token.read_equals more with kind | kind <;> rw [kind] at starts <;>
        exact absurd starts (by decide)

theorem derives_enclosed {tokens : List Token} {level : Level} {node : Node}
    (derives : Derives tokens (.expression level node)) :
    Derives (fixed .openParen :: tokens ++ [fixed .closeParen]) (.expression .call node) := by
  have bound : Level.equality.rank ≤ level.rank := by cases level <;> decide
  exact (Derives.group rfl rfl (derives.loosen bound)).loosen (by decide)

/-- The text of the items of a list after the first. -/
def afterFirst (items : List String) : String :=
  if items.isEmpty then "" else ", " ++ ", ".intercalate items

theorem afterFirst_cons (first : String) (rest : List String) :
    afterFirst (first :: rest) = ", " ++ ", ".intercalate (first :: rest) :=
  rfl

theorem intercalate_cons (first : String) (rest : List String) :
    ", ".intercalate (first :: rest) = first ++ afterFirst rest := by
  cases rest with
  | nil => simp [afterFirst, String.intercalate_singleton]
  | cons second rest => rw [String.intercalate_cons_cons, afterFirst_cons, String.append_assoc]

/-- The text of a phrase is read as tokens that derive the phrase again. -/
def Prints : Phrase → Prop
  | .expression _ node => ∃ tokens again, Scans (text node) tokens ∧
      Derives tokens (.expression .call again) ∧ again.unmarked = node.unmarked
  | .arguments nodes => ∃ tokens again, Scans (", ".intercalate (texts nodes)) tokens ∧
      Derives tokens (.arguments again) ∧ unmarkedAll again = unmarkedAll nodes
  | .furtherArguments nodes => ∃ tokens again, Scans (afterFirst (texts nodes)) tokens ∧
      Derives tokens (.furtherArguments again) ∧ unmarkedAll again = unmarkedAll nodes
  | .parameters names => ∃ tokens, Scans (", ".intercalate (names.map Identifier.name)) tokens ∧
      Derives tokens (.parameters names)
  | .furtherParameters names => ∃ tokens,
      Scans (afterFirst (names.map Identifier.name)) tokens ∧
        Derives tokens (.furtherParameters names)
  | .block node => ∃ tokens again, Scans (text node) tokens ∧ Derives tokens (.block again) ∧
      again.unmarked = node.unmarked
  | .statement node => ∃ tokens again, Scans (text node) tokens ∧
      Derives tokens (.statement again) ∧ again.unmarked = node.unmarked
  | .statements nodes => ∃ tokens again, Scans ("; ".intercalate (texts nodes)) tokens ∧
      Derives tokens (.statements again) ∧ unmarkedAll again = unmarkedAll nodes

section

variable {level : Level} {node : Node}

theorem prints_literal {token : Token} (lexical : token.Lexical) (same : text node = token.literal)
    (derives : Derives [token] (.expression .primary node)) : Prints (.expression level node) := by
  refine ⟨[token], node, ?_, derives.loosen (by decide), rfl⟩
  rw [same]
  exact scans_literal lexical

theorem prints_binary {operator : Token} (lexical : operator.Lexical)
    (operates : operator.kind ∈ level.operators) {left right : Node}
    (first : Prints (.expression level left)) (second : Prints (.expression level.tighter right)) :
    Prints (.expression level (.binary operator left operator.literal right)) := by
  obtain ⟨tokens, again, scans, derives, same⟩ := first
  obtain ⟨tokens', again', scans', derives', same'⟩ := second
  have infixed := (Precedence.operates operates).2.2.1
  have unary_le : Level.unary.rank ≤ Level.call.rank := by decide
  have tighter_le := level.rank_tighter_le
  refine ⟨fixed .openParen :: (tokens ++ operator :: tokens') ++ [fixed .closeParen],
    .binary operator again operator.literal again', ?_,
    derives_enclosed (.binary operates (derives.loosen (by omega)) (derives'.loosen (by omega))),
    ?_⟩
  · intro rest edge
    have shape : (text (.binary operator left operator.literal right)).toList ++ rest =
        '(' :: ((text left).toList ++ ' ' :: (operator.literal.toList ++
          ' ' :: ((text right).toList ++ ')' :: rest))) := by
      simp [text]
    rw [shape, scan_openParen, scans.spaced, scan_spaced lexical,
      scans' (edge_cons (by decide) _), scan_closeParen]
    simp
  · simp only [Node.unmarked, same, same']

theorem prints_unary {operator : Token} (lexical : operator.Lexical)
    (operates : operator.kind = .minus ∨ operator.kind = .bang) {operand : Node}
    (inner : Prints (.expression .unary operand)) :
    Prints (.expression .unary (.unary operator operator.literal operand)) := by
  obtain ⟨tokens, again, scans, derives, same⟩ := inner
  refine ⟨fixed .openParen :: (operator :: tokens) ++ [fixed .closeParen],
    .unary operator operator.literal again, ?_,
    derives_enclosed (.unary operates (derives.loosen (by decide))), ?_⟩
  · intro rest edge
    have shape : (text (.unary operator operator.literal operand)).toList ++ rest =
        '(' :: (operator.literal.toList ++ ((text operand).toList ++ ')' :: rest)) := by
      simp [text]
    have alone : scan (operator.literal.toList ++ ((text operand).toList ++ ')' :: rest)) =
        operator :: scan ((text operand).toList ++ ')' :: rest) := by
      rcases operates with minus | bang
      · rw [lexical.eq_fixed minus (by decide)]
        exact Token.scan_fixed (c := '-') rfl (by decide) (by decide) _
      · have single : Token.pairKind? '!' ((text operand).toList ++ ')' :: rest) = none := by
          rw [Token.pairKind?, if_neg (scans.not_equals derives (')' :: rest))]
        rw [lexical.eq_fixed bang (by decide)]
        exact Token.scan_symbol rfl single
    rw [shape, scan_openParen, alone, scans (edge_cons (by decide) _), scan_closeParen]
    simp
  · simp only [Node.unmarked, same]

theorem prints_call {opening : Token} (lexical : opening.Lexical)
    (opens : opening.kind = .openParen) {callee : Node} {arguments : List Node}
    (first : Prints (.expression .call callee)) (second : Prints (.arguments arguments)) :
    Prints (.expression .call (.call opening callee arguments)) := by
  obtain ⟨tokens, again, scans, derives, same⟩ := first
  obtain ⟨tokens', again', scans', derives', same'⟩ := second
  have spelled := lexical.eq_fixed opens (by decide)
  refine ⟨tokens ++ opening :: tokens' ++ [fixed .closeParen], .call opening again again', ?_,
    .call opens rfl derives derives', ?_⟩
  · intro rest edge
    have shape : (text (.call opening callee arguments)).toList ++ rest =
        (text callee).toList ++ '(' :: ((", ".intercalate (texts arguments)).toList ++
          ')' :: rest) := by
      simp [text]
    rw [shape, scans (edge_cons (by decide) _), scans'.enclosed, ← spelled]
    simp
  · simp only [Node.unmarked, same, same']

theorem prints_conditional {keyword : Token} (lexical : keyword.Lexical)
    (starts : keyword.kind = .ifWord) {first second : Node}
    (tested : Prints (.expression .equality first)) (chosen : Prints (.block second)) :
    Prints (.expression .primary (.conditional keyword first second .missing)) := by
  obtain ⟨tokens, again, scans, derives, same⟩ := tested
  obtain ⟨tokens', again', scans', derives', same'⟩ := chosen
  have spelled : keyword.literal = "if" := by rw [lexical.eq_fixed starts (by decide)]; rfl
  refine ⟨keyword :: fixed .openParen :: tokens ++ fixed .closeParen :: tokens',
    .conditional keyword again again' .missing, ?_,
    (Derives.conditional starts rfl rfl (derives.loosen (by decide)) derives').loosen (by decide),
    ?_⟩
  · intro rest edge
    have shape : (text (.conditional keyword first second .missing)).toList ++ rest =
        keyword.literal.toList ++ ' ' :: '(' :: ((text first).toList ++ ')' :: ' ' ::
          ((text second).toList ++ rest)) := by
      rw [spelled]
      simp [text, Node.isMissing]
    rw [shape, scan_spaced lexical, scans.enclosed, scan_space, scans' edge]
    simp
  · simp only [Node.unmarked, same, same']

theorem prints_alternative {keyword divider : Token} (lexical : keyword.Lexical)
    (starts : keyword.kind = .ifWord) (lexical' : divider.Lexical)
    (divides : divider.kind = .elseWord) {first second third : Node}
    (present : third.isMissing = false) (tested : Prints (.expression .equality first))
    (chosen : Prints (.block second)) (otherwise : Prints (.block third)) :
    Prints (.expression .primary (.conditional keyword first second third)) := by
  obtain ⟨tokens, again, scans, derives, same⟩ := tested
  obtain ⟨tokens', again', scans', derives', same'⟩ := chosen
  obtain ⟨tokens'', again'', scans'', derives'', same''⟩ := otherwise
  have spelled : keyword.literal = "if" := by rw [lexical.eq_fixed starts (by decide)]; rfl
  have spelled' : divider.literal = "else" := by rw [lexical'.eq_fixed divides (by decide)]; rfl
  refine ⟨keyword :: fixed .openParen :: tokens ++ fixed .closeParen :: tokens' ++
      divider :: tokens'',
    .conditional keyword again again' again'', ?_,
    (Derives.alternative starts rfl rfl divides (derives.loosen (by decide)) derives'
      derives'').loosen (by decide), ?_⟩
  · intro rest edge
    have shape : (text (.conditional keyword first second third)).toList ++ rest =
        keyword.literal.toList ++ ' ' :: '(' :: ((text first).toList ++ ')' :: ' ' ::
          ((text second).toList ++ ' ' :: (divider.literal.toList ++ ' ' ::
            ((text third).toList ++ rest)))) := by
      rw [spelled, spelled']
      simp [text, present]
    rw [shape, scan_spaced lexical, scans.enclosed, scan_space, scans'.spaced,
      scan_spaced lexical', scans'' edge]
    simp
  · simp only [Node.unmarked, same, same', same'']

theorem prints_function {keyword : Token} (lexical : keyword.Lexical)
    (starts : keyword.kind = .fnWord) {names : List Identifier} {body : Node}
    (named : Prints (.parameters names)) (inner : Prints (.block body)) :
    Prints (.expression .primary (.function keyword names body)) := by
  obtain ⟨tokens, scans, derives⟩ := named
  obtain ⟨tokens', again', scans', derives', same'⟩ := inner
  refine ⟨keyword :: fixed .openParen :: tokens ++ fixed .closeParen :: tokens',
    .function keyword names again', ?_,
    (Derives.function starts rfl rfl derives derives').loosen (by decide), ?_⟩
  · intro rest edge
    have shape : (text (.function keyword names body)).toList ++ rest =
        keyword.literal.toList ++ '(' :: ((", ".intercalate (names.map Identifier.name)).toList ++
          ')' :: ' ' :: ((text body).toList ++ rest)) := by
      simp [text, Node.nameList]
    rw [shape, Token.scan_literal lexical (edge_cons (by decide) _), scans.enclosed, scan_space,
      scans' edge]
    simp
  · simp only [Node.unmarked, same']

end

theorem edge_afterFirst (items : List String) {rest : List Char} (edge : Edge rest) :
    Edge ((afterFirst items).toList ++ rest) := by
  cases items with
  | nil => exact edge
  | cons first others =>
      rw [afterFirst_cons, String.toList_append, List.append_assoc]
      exact edge_cons (by decide) _

theorem scan_separator {c : Char} {kind : Kind} (found : Token.symbolKind? c = some kind)
    (equals : c ≠ '=') (bang : c ≠ '!') (rest : List Char) :
    scan (c :: ' ' :: rest) = fixed kind :: scan rest := by
  rw [Token.scan_fixed found equals bang, scan_space]

/-- The text of a list without its first item is empty, or it is a comma before that of a list. -/
theorem scans_afterFirst {first : String} {rest : List String} {tokens tokens' : List Token}
    (scans : Scans first tokens) (scans' : Scans (afterFirst rest) tokens') :
    Scans (", ".intercalate (first :: rest)) (tokens ++ tokens') ∧
      Scans (afterFirst (first :: rest)) (fixed .comma :: tokens ++ tokens') := by
  have listed : Scans (", ".intercalate (first :: rest)) (tokens ++ tokens') := by
    intro after edge
    rw [intercalate_cons, String.toList_append, List.append_assoc,
      scans (edge_afterFirst rest edge), scans' edge, List.append_assoc]
  refine ⟨listed, ?_⟩
  intro after edge
  have shape : (afterFirst (first :: rest)).toList ++ after =
      ',' :: ' ' :: ((", ".intercalate (first :: rest)).toList ++ after) := by
    simp [afterFirst_cons]
  rw [shape, scan_separator (c := ',') rfl (by decide) (by decide), listed edge]
  rfl

theorem scans_empty : Scans "" [] := fun _ => rfl

theorem prints_arguments {node : Node} {nodes : List Node}
    (first : Prints (.expression .equality node)) (second : Prints (.furtherArguments nodes)) :
    Prints (.arguments (node :: nodes)) ∧ Prints (.furtherArguments (node :: nodes)) := by
  obtain ⟨tokens, again, scans, derives, same⟩ := first
  obtain ⟨tokens', again', scans', derives', same'⟩ := second
  have alike : unmarkedAll (again :: again') = unmarkedAll (node :: nodes) := by
    simp only [unmarkedAll, same, same']
  have lowest : Derives tokens (.expression .equality again) := derives.loosen (by decide)
  obtain ⟨whole, further⟩ := scans_afterFirst scans scans'
  exact ⟨⟨_, again :: again', whole, .arguments lowest derives', alike⟩,
    ⟨_, again :: again', further, .furtherArguments rfl lowest derives', alike⟩⟩

theorem prints_parameters {token : Token} (lexical : token.Lexical) (kind : token.kind = .name)
    {names : List Identifier} (further : Prints (.furtherParameters names)) :
    Prints (.parameters (⟨token, token.literal⟩ :: names)) ∧
      Prints (.furtherParameters (⟨token, token.literal⟩ :: names)) := by
  obtain ⟨tokens, scans, derives⟩ := further
  obtain ⟨whole, others⟩ := scans_afterFirst (scans_literal lexical) scans
  exact ⟨⟨_, whole, .parameters kind derives⟩, ⟨_, others, .furtherParameters rfl kind derives⟩⟩

theorem prints_block {opening : Token} (lexical : opening.Lexical)
    (opens : opening.kind = .openBrace) {nodes : List Node} (inner : Prints (.statements nodes)) :
    Prints (.block (.block opening nodes)) := by
  obtain ⟨tokens, again, scans, derives, same⟩ := inner
  have spelled := lexical.eq_fixed opens (by decide)
  refine ⟨opening :: tokens ++ [fixed .closeBrace], .block opening again, ?_,
    .block opens rfl derives, ?_⟩
  · intro rest edge
    have closed : scan (' ' :: '}' :: rest) = fixed .closeBrace :: scan rest := by
      rw [scan_space, Token.scan_fixed (c := '}') rfl (by decide) (by decide)]
    have inside : scan ((text (.block opening nodes)).toList ++ rest) =
        fixed .openBrace ::
          scan (("; ".intercalate (texts nodes)).toList ++ ' ' :: '}' :: rest) := by
      cases nodes with
      | nil =>
          have shape : (text (.block opening [])).toList ++ rest = '{' :: ' ' :: '}' :: rest := by
            simp [text, texts, Node.blockText]
          rw [shape, scan_separator (c := '{') rfl (by decide) (by decide), texts,
            String.intercalate_nil]
          exact congrArg _ (scan_space _).symm
      | cons node others =>
          have shape : (text (.block opening (node :: others))).toList ++ rest =
              '{' :: ' ' :: (("; ".intercalate (texts (node :: others))).toList ++
                ' ' :: '}' :: rest) := by
            simp [text, texts, Node.blockText]
          rw [shape, scan_separator (c := '{') rfl (by decide) (by decide)]
    rw [inside, scans (edge_cons (by decide) _), closed, ← spelled]
    simp
  · simp only [Node.unmarked, same]

theorem prints_binding {keyword target sign : Token} (lexical : keyword.Lexical)
    (starts : keyword.kind = .letWord) (lexical' : target.Lexical) (kind : target.kind = .name)
    (lexical'' : sign.Lexical) (assigns : sign.kind = .assign) {value : Node}
    (inner : Prints (.expression .equality value)) :
    Prints (.statement (.binding keyword ⟨target, target.literal⟩ value)) := by
  obtain ⟨tokens, again, scans, derives, same⟩ := inner
  refine ⟨keyword :: target :: sign :: tokens, .binding keyword ⟨target, target.literal⟩ again, ?_,
    .binding starts kind assigns (derives.loosen (by decide)), ?_⟩
  · intro rest edge
    have spelled : sign.literal = "=" := by rw [lexical''.eq_fixed assigns (by decide)]; rfl
    have shape : (text (.binding keyword ⟨target, target.literal⟩ value)).toList ++ rest =
        keyword.literal.toList ++ ' ' :: (target.literal.toList ++ ' ' ::
          (sign.literal.toList ++ ' ' :: ((text value).toList ++ rest))) := by
      rw [spelled]
      simp [text]
    rw [shape, scan_spaced lexical, scan_spaced lexical', scan_spaced lexical'', scans edge]
    rfl
  · simp only [Node.unmarked, same]

theorem prints_returning {keyword : Token} (lexical : keyword.Lexical)
    (starts : keyword.kind = .returnWord) {value : Node}
    (inner : Prints (.expression .equality value)) :
    Prints (.statement (.returning keyword value)) := by
  obtain ⟨tokens, again, scans, derives, same⟩ := inner
  refine ⟨keyword :: tokens, .returning keyword again, ?_,
    .returning starts (derives.loosen (by decide)), ?_⟩
  · intro rest edge
    have shape : (text (.returning keyword value)).toList ++ rest =
        keyword.literal.toList ++ ' ' :: ((text value).toList ++ rest) := by
      simp [text]
    rw [shape, scan_spaced lexical, scans edge]
    rfl
  · simp only [Node.unmarked, same]

theorem prints_evaluation {token : Token} {value : Node}
    (inner : Prints (.expression .equality value)) :
    Prints (.statement (.statement token value)) := by
  obtain ⟨tokens, again, scans, derives, same⟩ := inner
  obtain ⟨first, others, rfl, _⟩ := derives.starts
  refine ⟨first :: others, .statement first again, scans,
    .evaluation (derives.loosen (by decide)), ?_⟩
  simp only [Node.unmarked, same]

/-- The statements of a text are separated by semicolons, however they were separated before. -/
theorem prints_statements {node : Node} {nodes : List Node} (first : Prints (.statement node))
    (second : Prints (.statements nodes)) : Prints (.statements (node :: nodes)) := by
  obtain ⟨tokens, again, scans, derives, same⟩ := first
  obtain ⟨tokens', again', scans', derives', same'⟩ := second
  cases nodes with
  | nil =>
      have last : Separate [] := fun token member => by cases member
      refine ⟨tokens ++ [], [again], ?_, .unended last derives .noStatements, ?_⟩
      · intro rest edge
        rw [texts, texts, String.intercalate_singleton, scans edge, List.append_nil]
      · simp only [unmarkedAll, same]
  | cons next others =>
      refine ⟨tokens ++ fixed .semicolon :: tokens', again :: again', ?_,
        .ended rfl derives derives', ?_⟩
      · intro rest edge
        have shape : ("; ".intercalate (texts (node :: next :: others))).toList ++ rest =
            (text node).toList ++ ';' :: ' ' ::
              (("; ".intercalate (texts (next :: others))).toList ++ rest) := by
          simp [texts, String.intercalate_cons_cons]
        rw [shape, scans (edge_cons (by decide) _),
          scan_separator (c := ';') rfl (by decide) (by decide), scans' edge]
        simp
      · rw [unmarkedAll, unmarkedAll, same, same']

theorem Derives.prints {tokens : List Token} {phrase : Phrase} (derives : Derives tokens phrase)
    (scanned : Scanned tokens) : Prints phrase := by
  induction derives with
  | tighter inner ih => exact ih scanned
  | binary operates first second ih ih' =>
      obtain ⟨left, rest⟩ := scanned.of_append
      exact prints_binary rest.of_cons.1 operates (ih left) (ih' rest.of_cons.2)
  | unary operates operand ih =>
      exact prints_unary scanned.of_cons.1 operates (ih scanned.of_cons.2)
  | call opens closes first second ih ih' =>
      obtain ⟨callee, rest⟩ := scanned.of_append.1.of_append
      exact prints_call rest.of_cons.1 opens (ih callee) (ih' rest.of_cons.2)
  | name kind => exact prints_literal scanned.of_cons.1 rfl (.name kind)
  | number kind nonempty digits bound =>
      exact prints_literal scanned.of_cons.1 rfl (.number kind nonempty digits bound)
  | affirmation kind => exact prints_literal scanned.of_cons.1 rfl (.affirmation kind)
  | negation kind => exact prints_literal scanned.of_cons.1 rfl (.negation kind)
  | group opens closes inner ih => exact ih scanned.of_append.1.of_cons.2
  | conditional starts opens closes tested chosen ih ih' =>
      obtain ⟨front, rest⟩ := scanned.of_append
      exact prints_conditional front.of_cons.1 starts (ih front.of_cons.2.of_cons.2)
        (ih' rest.of_cons.2)
  | alternative starts opens closes divides tested chosen otherwise ih ih' ih'' =>
      obtain ⟨front, rest⟩ := scanned.of_append
      obtain ⟨front, middle⟩ := front.of_append
      exact prints_alternative front.of_cons.1 starts rest.of_cons.1 divides otherwise.present
        (ih front.of_cons.2.of_cons.2) (ih' middle.of_cons.2) (ih'' rest.of_cons.2)
  | function starts opens closes parameters inner ih ih' =>
      obtain ⟨front, rest⟩ := scanned.of_append
      exact prints_function front.of_cons.1 starts (ih front.of_cons.2.of_cons.2)
        (ih' rest.of_cons.2)
  | noArguments => exact ⟨[], [], scans_empty, .noArguments, rfl⟩
  | arguments initial further ih ih' =>
      obtain ⟨first, others⟩ := scanned.of_append
      exact (prints_arguments (ih first) (ih' others)).1
  | lastArgument => exact ⟨[], [], scans_empty, .lastArgument, rfl⟩
  | furtherArguments divides following further ih ih' =>
      obtain ⟨front, others⟩ := scanned.of_append
      exact (prints_arguments (ih front.of_cons.2) (ih' others)).2
  | noParameters => exact ⟨[], scans_empty, .noParameters⟩
  | parameters kind further ih =>
      exact (prints_parameters scanned.of_cons.1 kind (ih scanned.of_cons.2)).1
  | lastParameter => exact ⟨[], scans_empty, .lastParameter⟩
  | furtherParameters divides kind further ih =>
      obtain ⟨lexical, others⟩ := scanned.of_cons.2.of_cons
      exact (prints_parameters lexical kind (ih others)).2
  | block opens closes inner ih =>
      exact prints_block scanned.of_append.1.of_cons.1 opens (ih scanned.of_append.1.of_cons.2)
  | binding starts kind assigns value ih =>
      obtain ⟨lexical, rest⟩ := scanned.of_cons
      obtain ⟨lexical', rest⟩ := rest.of_cons
      exact prints_binding lexical starts lexical' kind rest.of_cons.1 assigns
        (ih rest.of_cons.2)
  | returning starts value ih =>
      exact prints_returning scanned.of_cons.1 starts (ih scanned.of_cons.2)
  | evaluation value ih => exact prints_evaluation (ih scanned)
  | noStatements => exact ⟨[], [], scans_empty, .noStatements, rfl⟩
  | ended ends initial further ih ih' =>
      obtain ⟨first, rest⟩ := scanned.of_append
      exact prints_statements (ih first) (ih' rest.of_cons.2)
  | unended separate initial further ih ih' =>
      obtain ⟨first, rest⟩ := scanned.of_append
      exact prints_statements (ih first) (ih' rest)

/-- The text of an expression is read as a program of one statement, which has the expression again. -/
theorem Prints.read_expression {depth : Nat} {level : Level} {node : Node}
    (prints : Prints (.expression level node))
    (bounded : .tooDeep ∉ (readText depth (text node)).mistakes) :
    ∃ first again, readText depth (text node) = ⟨.program [.statement first again], []⟩ ∧
      again.unmarked = node.unmarked := by
  obtain ⟨tokens, again, scans, derives, same⟩ := prints
  obtain ⟨first, others, rfl, _⟩ := derives.starts
  have last : Separate [] := fun token member => by cases member
  have whole := Derives.unended last (.evaluation (derives.loosen (by decide))) .noStatements
  rw [List.append_nil] at whole
  unfold readText at bounded ⊢
  rw [scans.alone] at bounded ⊢
  exact ⟨first, again, complete_readTokens whole bounded, same⟩

/-- The canonical text of what is read of a source is read as the same tree, up to the tokens of
expression statements. -/
theorem readText_written {depth depth' : Nat} {source written : String}
    (writes : (readText depth source).program.write = .ok written)
    (bounded : .tooDeep ∉ (readText depth' written).mistakes) :
    (readText depth' written).mistakes = [] ∧
      (readText depth' written).program.unmarked = (readText depth source).program.unmarked := by
  obtain ⟨nodes, used, shape, derives, lexical, _⟩ := sound_readTokens depth (.scan source.toList)
  obtain ⟨tokens, again, scans, derives', same⟩ := derives.prints lexical
  have program : (readText depth source).program = .program nodes := shape
  rw [program] at writes ⊢
  have text_eq : text (.program nodes) = written := by
    unfold Node.write at writes
    split at writes
    · exact Except.ok.inj writes
    · cases writes
  have tokens_eq : scan written.toList = tokens := by
    rw [← text_eq, text]
    exact scans.alone
  have read : readText depth' written = ⟨.program again, []⟩ := by
    unfold readText at bounded ⊢
    rw [tokens_eq] at bounded ⊢
    exact complete_readTokens derives' bounded
  rw [read]
  exact ⟨rfl, by simp only [Node.unmarked, same]⟩

/-- The canonical text of what is read of a source, which may have mistakes, is read without one and
as the same tree up to the tokens of its expression statements. -/
theorem canonical_text_read_back (depth depth' : Nat) (source written : String)
    (writes : (readText depth source).program.write = .ok written)
    (bounded : .tooDeep ∉ (readText depth' written).mistakes) :
    (readText depth' written).mistakes = [] ∧
      (readText depth' written).program.unmarked = (readText depth source).program.unmarked ∧
      (readText depth' written).program.write = .ok written := by
  obtain ⟨clean, alike⟩ := readText_written writes bounded
  exact ⟨clean, alike, (Node.write_eq_of_unmarked alike).trans writes⟩

/-- The first statement of this source is left out, and the last one where its brace is missing. -/
theorem canonical_text_read_back_after_mistakes :
    (readText 9 "let = 3; a + -b * f(1)(2) let x = if (y) \x7b 1 ) \x7d; fn(").program.write =
        .ok "(a + ((-b) * f(1)(2))); let x = if (y) \x7b 1 \x7d" ∧
      (readText 9 "(a + ((-b) * f(1)(2))); let x = if (y) \x7b 1 \x7d").mistakes = [] := by
  have writes :
      (readText 9 "let = 3; a + -b * f(1)(2) let x = if (y) \x7b 1 ) \x7d; fn(").program.write =
        .ok "(a + ((-b) * f(1)(2))); let x = if (y) \x7b 1 \x7d" := by decide +kernel
  have bounded : Mistake.tooDeep ∉
      (readText 9 "(a + ((-b) * f(1)(2))); let x = if (y) \x7b 1 \x7d").mistakes := by
    decide +kernel
  exact ⟨writes, (canonical_text_read_back 9 9 _ _ writes bounded).1⟩

end MonkeyLang.Grammar
