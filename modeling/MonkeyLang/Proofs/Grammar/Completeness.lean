import MonkeyLang.Proofs.Grammar.Derivation
import MonkeyLang.Proofs.Grammar.Reaching

/-!
What derives is read. From a place where the tokens of a phrase are ahead, the rule of the phrase
gives its tree and goes past these tokens, unless no level is left for an expression inside.
-/

namespace MonkeyLang.Grammar

open Token (Kind)

/-- No expression goes on here. -/
def Stops (rest : List Token) : Prop :=
  upcomingRank rest ≤ Precedence.lowest.rank ∧ upcoming rest ≠ .elseWord

theorem stops_of_kind {rest : List Token} {kind : Kind} (follow : upcoming rest = kind)
    (plain : kind ∈ [.closeParen, .comma, .semicolon, .closeBrace, .endOfInput]) : Stops rest := by
  have all : ∀ kind ∈ [Kind.closeParen, .comma, .semicolon, .closeBrace, .endOfInput],
      (Precedence.ofKind kind).rank ≤ Precedence.lowest.rank ∧ kind ≠ .elseWord := by decide
  rw [Stops, upcomingRank, follow]
  exact all kind plain

/-- A rule that reads an argument. -/
def argument (depth : Nat) : Rule Node := do
  advance
  expression depth .lowest

def parameter : Rule Identifier := do
  expect .name
  identifier

/-- What is left after the semicolon that may end a statement. -/
def pastSemicolon (rest : List Token) : List Token :=
  if upcoming rest = .semicolon then rest.tail else rest

/-- Statements are read up to `rest`, unless no level is left for one of them. Inside a block
nothing is read then, outside it is one of the mistakes. -/
def ReachesEnd (depth : Nat) (stop : Kind) (rounds : Nat) (cursor : Cursor) (nodes : List Node)
    (rest : List Token) : Prop :=
  (∃ reached, outcome (statementsFor (expression depth) stop rounds) cursor = (.ok nodes, reached) ∧
    Quiet cursor reached ∧ reached.ahead = rest) ∨
  (cursor.openBlocks ≠ 0 ∧ Exhausted (statementsFor (expression depth) stop rounds) cursor) ∨
  (cursor.openBlocks = 0 ∧
    .tooDeep ∈ (outcome (statementsFor (expression depth) stop rounds) cursor).2.mistakes)

/-- The tokens of a phrase are read by its rule from every place where they are ahead. -/
def Read (tokens : List Token) : Phrase → Prop
  | .expression level node => ∀ {depth precedence cursor rest}, cursor.ahead = tokens ++ rest →
      precedence.above.rank ≤ level.rank → precedence ≠ .call → upcomingRank rest ≤ level.rank →
      upcoming rest ≠ .elseWord → Leads depth precedence cursor node rest
  | .arguments nodes => ∀ {depth cursor rest}, cursor.ahead.tail = tokens ++ rest →
      upcoming rest = .closeParen → Reaches (listed (argument depth)) cursor nodes rest.tail
  | .furtherArguments nodes => ∀ {depth rounds cursor rest}, cursor.ahead.tail = tokens ++ rest →
      upcoming rest = .closeParen → tokens.length ≤ rounds →
      Reaches (itemsAfter (argument depth) rounds) cursor nodes rest
  | .parameters names => ∀ {cursor rest}, cursor.ahead.tail = tokens ++ rest →
      upcoming rest = .closeParen → Reaches (listed parameter) cursor names rest.tail
  | .furtherParameters names => ∀ {rounds cursor rest}, cursor.ahead.tail = tokens ++ rest →
      upcoming rest = .closeParen → tokens.length ≤ rounds →
      Reaches (itemsAfter parameter rounds) cursor names rest
  | .block node => ∀ {depth cursor rest}, cursor.ahead = tokens ++ rest →
      Reaches (block (expression depth)) cursor node rest
  | .statement node => ∀ {depth cursor rest}, cursor.ahead = tokens ++ rest → Stops rest →
      Reaches (statement (expression depth)) cursor node (pastSemicolon rest)
  | .statements nodes => ∀ {depth stop rounds cursor rest}, cursor.ahead = tokens ++ rest →
      upcoming rest = stop → (stop = .closeBrace ∨ stop = .endOfInput) → tokens.length ≤ rounds →
      ReachesEnd depth stop rounds cursor nodes rest

/-- Where an expression is read with a precedence that stops at what follows, all of it is read. -/
theorem read_all {tokens : List Token} {level : Level} {node : Node}
    (read : Read tokens (.expression level node)) {depth : Nat} {precedence : Precedence}
    {cursor : Cursor} {rest : List Token} (ahead : cursor.ahead = tokens ++ rest)
    (admitted : precedence.above.rank ≤ level.rank) (open_ended : precedence ≠ .call)
    (bound : upcomingRank rest ≤ precedence.rank) (ends : upcoming rest ≠ .elseWord) :
    Reaches (expression depth precedence) cursor node rest := by
  cases depth with
  | zero => exact .inr ⟨cursor, rfl⟩
  | succ depth =>
      have below := Precedence.rank_le_above open_ended
      exact (read ahead admitted open_ended (by omega) ends).reaches bound

theorem read_lowest {tokens : List Token} {node : Node}
    (read : Read tokens (.expression .equality node)) {depth : Nat} {cursor : Cursor}
    {rest : List Token} (ahead : cursor.ahead = tokens ++ rest) (stops : Stops rest) :
    Reaches (expression depth .lowest) cursor node rest :=
  read_all read ahead (Nat.le_refl _) (by decide) stops.1 stops.2

theorem read_name {token : Token} (kind : token.kind = .name) :
    Read [token] (.expression .primary (.name ⟨token, token.literal⟩)) := by
  intro depth precedence cursor rest ahead _ _ _ _
  have current := current_eq ahead
  apply leads_of_operand
  refine .inl ⟨cursor, ?_, Quiet.refl cursor, by rw [ahead]; rfl⟩
  simp only [operand, outcome_current_bind, current, kind]
  rw [← current]
  rfl

theorem read_number {token : Token} (kind : token.kind = .number)
    (nonempty : token.literal.toList ≠ []) (digits : ∀ c ∈ token.literal.toList, Token.isDigit c)
    (bound : token.literal.toList.length ≤ Numeral.digitLimit) :
    Read [token]
      (.expression .primary (.number token (Numeral.decimal token.literal.toList))) := by
  intro depth precedence cursor rest ahead _ _ _ _
  have current := current_eq ahead
  apply leads_of_operand
  refine .inl ⟨cursor, ?_, Quiet.refl cursor, by rw [ahead]; rfl⟩
  simp only [operand, outcome_current_bind, current, kind, number]
  rw [Numeral.read?_digits nonempty digits, if_pos bound]
  rfl

theorem read_truth {token : Token} {value : Bool}
    (kind : token.kind = .trueWord ∧ value = true ∨ token.kind = .falseWord ∧ value = false) :
    Read [token] (.expression .primary (.truth token value)) := by
  intro depth precedence cursor rest ahead _ _ _ _
  have current := current_eq ahead
  apply leads_of_operand
  refine .inl ⟨cursor, ?_, Quiet.refl cursor, by rw [ahead]; rfl⟩
  rcases kind with ⟨kind, rfl⟩ | ⟨kind, rfl⟩ <;>
    simp only [operand, outcome_current_bind, current, kind, truth] <;> rfl

theorem read_unary {operator : Token} (operates : operator.kind = .minus ∨ operator.kind = .bang)
    {tokens : List Token} {node : Node} (inner : Read tokens (.expression .unary node)) :
    Read (operator :: tokens) (.expression .unary (.unary operator operator.literal node)) := by
  intro depth precedence cursor rest ahead _ _ bound ends
  have current := current_eq ahead
  refine leads_of_operand (Reaches.of_rule (unary (expression depth)) ?_ ?_)
  · rcases operates with kind | kind <;> simp only [operand, outcome_current_bind, current, kind]
  · have inside : cursor.advance.ahead = tokens ++ rest := advance_ahead ahead
    refine reaches_current (reaches_advance ?_)
    refine Reaches.bind (read_all inner inside (Nat.le_refl _) (by decide) bound ends) ?_
    intro reached _ tail
    rw [current]
    exact reaches_pure _ tail

theorem read_grouped {opening closing : Token} (opens : opening.kind = .openParen)
    (closes : closing.kind = .closeParen) {tokens : List Token} {node : Node}
    (inner : Read tokens (.expression .equality node)) :
    Read (opening :: tokens ++ [closing]) (.expression .primary node) := by
  intro depth precedence cursor rest ahead _ _ _ _
  simp only [List.cons_append, List.append_assoc, List.nil_append] at ahead
  have current := current_eq ahead
  refine leads_of_operand (Reaches.of_rule (grouped (expression depth)) ?_ ?_)
  · simp only [operand, outcome_current_bind, current, opens]
  · have follow : upcoming (closing :: rest) = .closeParen := closes
    have stops := stops_of_kind follow (by decide)
    refine reaches_advance (Reaches.bind (read_lowest inner (advance_ahead ahead) stops) ?_)
    intro reached _ tail
    exact reaches_expect (by rw [tail, follow]) (reaches_pure _ (congrArg List.tail tail))

theorem read_function {keyword opening closing : Token} (starts : keyword.kind = .fnWord)
    (opens : opening.kind = .openParen) (closes : closing.kind = .closeParen)
    {named body : List Token} {names : List Identifier} {node : Node}
    (braces : ∀ rest, upcoming (body ++ rest) = .openBrace)
    (first : Read named (.parameters names)) (second : Read body (.block node)) :
    Read (keyword :: opening :: named ++ closing :: body)
      (.expression .primary (.function keyword names node)) := by
  intro depth precedence cursor rest ahead _ _ _ _
  simp only [List.cons_append, List.append_assoc] at ahead
  have current := current_eq ahead
  have entered := advance_ahead ahead
  refine leads_of_operand (Reaches.of_rule (function (expression depth)) ?_ ?_)
  · simp only [operand, outcome_current_bind, current, starts]
  · refine reaches_current (reaches_expect ((congrArg upcoming entered).trans opens) ?_)
    apply Reaches.bind (first (congrArg List.tail entered) closes)
    intro listed _ tail
    apply reaches_expect (by rw [tail]; exact braces rest)
    apply Reaches.bind (second tail)
    intro reached _ tail
    rw [current]
    exact reaches_pure _ tail

/-- A conditional is read up to its first block. -/
theorem reaches_conditional {depth : Nat} {cursor : Cursor} {keyword opening closing : Token}
    {condition consequence rest last : List Token} {first second node : Node}
    (ahead : cursor.ahead = keyword :: opening :: (condition ++ closing :: (consequence ++ rest)))
    (opens : opening.kind = .openParen) (closes : closing.kind = .closeParen)
    (braces : ∀ rest, upcoming (consequence ++ rest) = .openBrace)
    (tested : Read condition (.expression .equality first))
    (chosen : Read consequence (.block second))
    (otherwise : ∀ middle : Cursor, middle.ahead.tail = rest →
      Reaches (elseBranch (expression depth) keyword first second) middle node last) :
    Reaches (conditional (expression depth)) cursor node last := by
  have entered := advance_ahead ahead
  have follow : upcoming (closing :: (consequence ++ rest)) = .closeParen := closes
  refine reaches_current (reaches_expect ((congrArg upcoming entered).trans opens) ?_)
  refine reaches_advance (Reaches.bind
    (read_lowest tested (advance_ahead entered) (stops_of_kind follow (by decide))) ?_)
  intro asked _ tail
  apply reaches_expect ((congrArg upcoming tail).trans closes)
  have after : asked.advance.ahead.tail = consequence ++ rest := congrArg List.tail tail
  apply reaches_expect ((congrArg upcoming after).trans (braces rest))
  apply Reaches.bind (chosen after)
  intro middle _ tail
  rw [current_eq ahead]
  exact otherwise middle tail

theorem read_conditional {keyword opening closing : Token} (starts : keyword.kind = .ifWord)
    (opens : opening.kind = .openParen) (closes : closing.kind = .closeParen)
    {condition consequence : List Token} {first second : Node}
    (braces : ∀ rest, upcoming (consequence ++ rest) = .openBrace)
    (tested : Read condition (.expression .equality first))
    (chosen : Read consequence (.block second)) :
    Read (keyword :: opening :: condition ++ closing :: consequence)
      (.expression .primary (.conditional keyword first second .missing)) := by
  intro depth precedence cursor rest ahead _ _ _ alone
  simp only [List.cons_append, List.append_assoc] at ahead
  refine leads_of_operand (Reaches.of_rule (conditional (expression depth)) ?_ ?_)
  · simp only [operand, outcome_current_bind, current_eq ahead, starts]
  · apply reaches_conditional ahead opens closes braces tested chosen
    intro middle tail
    have single : middle.peek.kind ≠ .elseWord := fun divides =>
      alone ((congrArg upcoming tail).symm.trans divides)
    apply reaches_peek
    rw [if_neg single]
    exact reaches_pure _ tail

theorem read_alternative {keyword opening closing divider : Token}
    (starts : keyword.kind = .ifWord) (opens : opening.kind = .openParen)
    (closes : closing.kind = .closeParen) (divides : divider.kind = .elseWord)
    {condition consequence alternative : List Token} {first second third : Node}
    (braces : ∀ rest, upcoming (consequence ++ rest) = .openBrace)
    (bracesAgain : ∀ rest, upcoming (alternative ++ rest) = .openBrace)
    (tested : Read condition (.expression .equality first))
    (chosen : Read consequence (.block second)) (otherwise : Read alternative (.block third)) :
    Read (keyword :: opening :: condition ++ closing :: consequence ++ divider :: alternative)
      (.expression .primary (.conditional keyword first second third)) := by
  intro depth precedence cursor rest ahead _ _ _ _
  simp only [List.cons_append, List.append_assoc] at ahead
  refine leads_of_operand (Reaches.of_rule (conditional (expression depth)) ?_ ?_)
  · simp only [operand, outcome_current_bind, current_eq ahead, starts]
  · apply reaches_conditional ahead opens closes braces tested chosen
    intro middle tail
    have parted : middle.peek.kind = .elseWord := (congrArg upcoming tail).trans divides
    apply reaches_peek
    rw [if_pos parted]
    have beyond : middle.advance.ahead.tail = alternative ++ rest := congrArg List.tail tail
    refine reaches_advance (reaches_expect ((congrArg upcoming beyond).trans (bracesAgain rest)) ?_)
    apply Reaches.bind (otherwise beyond)
    intro reached _ tail
    exact reaches_pure _ tail

theorem read_tighter {tokens : List Token} {level : Level} {node : Node}
    (inner : Read tokens (.expression level.tighter node)) :
    Read tokens (.expression level node) := by
  intro depth precedence cursor rest ahead admitted open_ended bound ends
  have wider := level.rank_le_tighter
  exact inner ahead (by omega) open_ended (by omega) ends

theorem read_binary {operator : Token} {level : Level} (operates : operator.kind ∈ level.operators)
    {left right : List Token} {leftNode rightNode : Node}
    (first : Read left (.expression level leftNode))
    (second : Read right (.expression level.tighter rightNode)) :
    Read (left ++ operator :: right)
      (.expression level (.binary operator leftNode operator.literal rightNode)) := by
  intro depth precedence cursor rest ahead admitted open_ended bound ends
  rw [List.append_assoc, List.cons_append] at ahead
  obtain ⟨rank, above, infixed, tighter, plain, other⟩ := Precedence.operates operates
  have next : upcomingRank (operator :: (right ++ rest)) = level.rank := rank
  have continues := Precedence.rank_lt_of_above admitted infixed
  have leads : Leads depth precedence cursor leftNode (operator :: (right ++ rest)) :=
    first ahead admitted open_ended (Nat.le_of_eq next) other
  apply leads.widen (by omega)
  intro stopped _ tail
  have current : stopped.advance.current = operator := current_eq tail
  apply reaches_current
  rw [current, if_neg plain]
  refine reaches_current (reaches_advance ?_)
  rw [current]
  have inside : stopped.advance.advance.ahead = right ++ rest := advance_ahead tail
  refine Reaches.bind (read_all second inside (Nat.le_of_eq (congrArg Level.rank above)) tighter
    (by omega) ends) ?_
  intro reached _ tail
  exact reaches_pure _ tail

theorem read_call {opening closing : Token} (opens : opening.kind = .openParen)
    (closes : closing.kind = .closeParen) {callee given : List Token} {node : Node}
    {nodes : List Node} (first : Read callee (.expression .call node))
    (second : Read given (.arguments nodes)) :
    Read (callee ++ opening :: given ++ [closing])
      (.expression .call (.call opening node nodes)) := by
  intro depth precedence cursor rest ahead admitted open_ended _ _
  simp only [List.append_assoc, List.cons_append, List.nil_append] at ahead
  have next : upcoming (opening :: (given ++ closing :: rest)) = .openParen := opens
  have rank : upcomingRank (opening :: (given ++ closing :: rest)) = Level.call.rank := by
    rw [upcomingRank, next]
    rfl
  have continues := Precedence.rank_lt_call open_ended
  have leads : Leads depth precedence cursor node (opening :: (given ++ closing :: rest)) :=
    first ahead admitted open_ended (Nat.le_of_eq rank) (by rw [next]; decide)
  apply leads.widen (by omega)
  intro stopped _ tail
  have current : stopped.advance.current = opening := current_eq tail
  apply reaches_current
  rw [current, if_pos opens]
  apply reaches_current
  rw [current]
  refine Reaches.bind (second (congrArg List.tail tail) closes) ?_
  intro reached _ tail
  exact reaches_pure _ tail

section

variable {α : Type} {rule : Rule α} {cursor : Cursor} {value : α} {values : List α}
  {used after rest : List Token}

theorem reaches_itemsAfter_nil (rounds : Nat) (tail : cursor.ahead.tail = rest)
    (ends : upcoming rest ≠ .comma) : Reaches (itemsAfter rule rounds) cursor [] rest := by
  cases rounds with
  | zero => exact reaches_pure _ tail
  | succ rounds =>
      have last : cursor.peek.kind ≠ .comma := fun comma =>
        ends ((congrArg upcoming tail).symm.trans comma)
      apply reaches_peek
      rw [if_neg last]
      exact reaches_pure _ tail

theorem reaches_itemsAfter_cons {comma : Token} {rounds : Nat} (divides : comma.kind = .comma)
    (tail : cursor.ahead.tail = comma :: (used ++ after))
    (item : ∀ {cursor}, cursor.ahead.tail = used ++ after → Reaches rule cursor value after)
    (further : ∀ {cursor}, cursor.ahead.tail = after →
      Reaches (itemsAfter rule rounds) cursor values rest) :
    Reaches (itemsAfter rule (rounds + 1)) cursor (value :: values) rest := by
  have next : cursor.peek.kind = .comma := (congrArg upcoming tail).trans divides
  apply reaches_peek
  rw [if_pos next]
  have inside : cursor.advance.ahead.tail = used ++ after := congrArg List.tail tail
  refine reaches_advance (Reaches.bind (item inside) ?_)
  intro middle _ tail
  apply Reaches.bind (further tail)
  intro reached _ tail
  exact reaches_pure _ tail

theorem reaches_listed_nil (tail : cursor.ahead.tail = rest)
    (closes : upcoming rest = .closeParen) :
    Reaches (listed rule) cursor [] rest.tail := by
  have next : cursor.peek.kind = .closeParen := (congrArg upcoming tail).trans closes
  apply reaches_peek
  rw [if_pos next]
  exact reaches_advance (reaches_pure _ (congrArg List.tail tail))

theorem reaches_listed_cons (starts : upcoming cursor.ahead.tail ≠ .closeParen)
    (item : Reaches rule cursor value after)
    (further : ∀ {cursor}, cursor.ahead.tail = after →
      Reaches (itemsAfter rule cursor.ahead.length) cursor values rest)
    (closes : upcoming rest = .closeParen) :
    Reaches (listed rule) cursor (value :: values) rest.tail := by
  have next : cursor.peek.kind ≠ .closeParen := starts
  apply reaches_peek
  rw [if_neg next]
  apply Reaches.bind item
  intro middle _ tail
  apply Reaches.of_eq (outcome_remaining_bind _ middle) (Quiet.refl middle)
  apply Reaches.bind (further tail)
  intro reached _ tail
  exact reaches_expect ((congrArg upcoming tail).trans closes)
    (reaches_pure _ (congrArg List.tail tail))

end

theorem reaches_argument {tokens : List Token} {node : Node}
    (read : Read tokens (.expression .equality node)) {depth : Nat} {cursor : Cursor}
    {after : List Token} (tail : cursor.ahead.tail = tokens ++ after) (stops : Stops after) :
    Reaches (argument depth) cursor node after :=
  reaches_advance (read_lowest read tail stops)

theorem reaches_parameter {token : Token} (kind : token.kind = .name) {cursor : Cursor}
    {after : List Token} (tail : cursor.ahead.tail = [token] ++ after) :
    Reaches parameter cursor ⟨token, token.literal⟩ after := by
  apply reaches_expect ((congrArg upcoming tail).trans kind)
  have current : cursor.advance.current = token := current_eq tail
  refine .inl ⟨cursor.advance, ?_, Quiet.refl _, congrArg List.tail tail⟩
  rw [← current]
  rfl

theorem length_le_ahead {cursor : Cursor} {tokens rest : List Token}
    (tail : cursor.ahead.tail = tokens ++ rest) : tokens.length ≤ cursor.ahead.length := by
  have shorter : cursor.ahead.tail.length = cursor.ahead.length - 1 := List.length_tail
  rw [tail, List.length_append] at shorter
  omega

/-- An argument ends where the further arguments start. -/
theorem further_stops {others rest : List Token} {nodes : List Node}
    (derives : Derives others (.furtherArguments nodes)) (closes : upcoming rest = .closeParen) :
    Stops (others ++ rest) := by
  cases derives with
  | lastArgument => exact stops_of_kind closes (by decide)
  | furtherArguments divides => exact stops_of_kind divides (by decide)

theorem read_furtherArguments {comma : Token} (divides : comma.kind = .comma)
    {next others : List Token} {node : Node} {nodes : List Node}
    (derives : Derives others (.furtherArguments nodes))
    (first : Read next (.expression .equality node))
    (second : Read others (.furtherArguments nodes)) :
    Read (comma :: next ++ others) (.furtherArguments (node :: nodes)) := by
  intro depth rounds cursor rest tail closes bound
  simp only [List.cons_append, List.append_assoc, List.length_cons,
    List.length_append] at tail bound
  cases rounds with
  | zero => omega
  | succ rounds =>
      have stops := further_stops derives closes
      exact reaches_itemsAfter_cons divides tail (fun tail => reaches_argument first tail stops)
        fun tail => second tail closes (by omega)

theorem read_arguments {first others : List Token} {node : Node} {nodes : List Node}
    (starts : ∀ rest, upcoming (first ++ rest) ≠ .closeParen)
    (derives : Derives others (.furtherArguments nodes))
    (initial : Read first (.expression .equality node))
    (further : Read others (.furtherArguments nodes)) :
    Read (first ++ others) (.arguments (node :: nodes)) := by
  intro depth cursor rest tail closes
  rw [List.append_assoc] at tail
  refine reaches_listed_cons (by rw [tail]; exact starts _)
    (reaches_argument initial tail (further_stops derives closes)) ?_ closes
  intro cursor tail
  exact further tail closes (length_le_ahead tail)

theorem read_furtherParameters {comma next : Token} (divides : comma.kind = .comma)
    (kind : next.kind = .name) {others : List Token} {names : List Identifier}
    (further : Read others (.furtherParameters names)) :
    Read (comma :: next :: others) (.furtherParameters (⟨next, next.literal⟩ :: names)) := by
  intro rounds cursor rest tail closes bound
  simp only [List.cons_append, List.length_cons] at tail bound
  cases rounds with
  | zero => omega
  | succ rounds =>
      exact reaches_itemsAfter_cons divides tail (reaches_parameter kind)
        fun tail => further tail closes (by omega)

theorem read_parameters {first : Token} (kind : first.kind = .name) {others : List Token}
    {names : List Identifier} (further : Read others (.furtherParameters names)) :
    Read (first :: others) (.parameters (⟨first, first.literal⟩ :: names)) := by
  intro cursor rest tail closes
  have starts : upcoming cursor.ahead.tail ≠ .closeParen := by
    rw [tail, show upcoming (first :: others ++ rest) = first.kind from rfl, kind]
    decide
  refine reaches_listed_cons starts (reaches_parameter kind tail) ?_ closes
  intro cursor tail
  exact further tail closes (length_le_ahead tail)

theorem reaches_passSemicolon {cursor : Cursor} {rest : List Token}
    (tail : cursor.ahead.tail = rest) :
    Reaches passSemicolon cursor () (pastSemicolon rest) := by
  unfold pastSemicolon
  by_cases ended : upcoming rest = .semicolon
  · have next : cursor.peek.kind = .semicolon := (congrArg upcoming tail).trans ended
    rw [if_pos ended]
    apply reaches_peek
    rw [if_pos next]
    exact .inl ⟨cursor.advance, rfl, Quiet.advance cursor, congrArg List.tail tail⟩
  · have next : cursor.peek.kind ≠ .semicolon := fun semicolon =>
      ended ((congrArg upcoming tail).symm.trans semicolon)
    rw [if_neg ended]
    apply reaches_peek
    rw [if_neg next]
    exact reaches_pure _ tail

/-- The value that a statement ends with is read with the semicolon after it. -/
theorem reaches_value {depth : Nat} {cursor : Cursor} {node : Node} {rest : List Token}
    (value : Reaches (expression depth .lowest) cursor node rest) (whole : Node → Node) :
    Reaches (do
      let value ← expression depth .lowest
      passSemicolon
      pure (whole value)) cursor (whole node) (pastSemicolon rest) := by
  apply Reaches.bind value
  intro middle _ tail
  apply Reaches.bind (reaches_passSemicolon tail)
  intro reached _ tail
  exact reaches_pure _ tail

theorem read_binding {keyword target sign : Token} (starts : keyword.kind = .letWord)
    (kind : target.kind = .name) (assigns : sign.kind = .assign) {tokens : List Token}
    {node : Node} (value : Read tokens (.expression .equality node)) :
    Read (keyword :: target :: sign :: tokens)
      (.statement (.binding keyword ⟨target, target.literal⟩ node)) := by
  intro depth cursor rest ahead stops
  simp only [List.cons_append] at ahead
  have current := current_eq ahead
  have entered := advance_ahead ahead
  have target_eq := current_eq entered
  apply Reaches.of_rule (letStatement (expression depth))
  · simp only [statement, outcome_current_bind, current, starts]
  · refine reaches_current (reaches_expect ((congrArg upcoming entered).trans kind) ?_)
    have signed : upcoming cursor.advance.ahead.tail = .assign := by
      rw [entered]
      exact assigns
    refine reaches_identifier (reaches_expect signed (reaches_advance ?_))
    have inside : cursor.advance.advance.advance.ahead = tokens ++ rest :=
      advance_ahead (advance_ahead entered)
    rw [current, target_eq]
    exact reaches_value (read_lowest value inside stops) _

theorem read_returning {keyword : Token} (starts : keyword.kind = .returnWord)
    {tokens : List Token} {node : Node} (value : Read tokens (.expression .equality node)) :
    Read (keyword :: tokens) (.statement (.returning keyword node)) := by
  intro depth cursor rest ahead stops
  have current := current_eq ahead
  apply Reaches.of_rule (returnStatement (expression depth))
  · simp only [statement, outcome_current_bind, current, starts]
  · refine reaches_current (reaches_advance ?_)
    rw [current]
    exact reaches_value (read_lowest value (advance_ahead ahead) stops) _

theorem outcome_statement {sub : Precedence → Rule Node} {cursor : Cursor}
    (starts : cursor.current.kind ∈ starters) :
    outcome (statement sub) cursor = outcome (expressionStatement sub) cursor := by
  have other : ∀ kind ∈ starters, kind ≠ .letWord ∧ kind ≠ .returnWord := by decide
  obtain ⟨unbound, unreturned⟩ := other _ starts
  rw [statement, outcome_current_bind]
  split
  · exact absurd ‹_› unbound
  · exact absurd ‹_› unreturned
  · rfl

theorem read_evaluation {token : Token} {tokens : List Token} {node : Node}
    (starts : token.kind ∈ starters)
    (value : Read (token :: tokens) (.expression .equality node)) :
    Read (token :: tokens) (.statement (.statement token node)) := by
  intro depth cursor rest ahead stops
  have current := current_eq ahead
  apply Reaches.of_rule (expressionStatement (expression depth))
  · rw [← current] at starts
    exact outcome_statement starts
  · apply reaches_current
    rw [current]
    exact reaches_value (read_lowest value ahead stops) _

theorem reachesEnd_nil {depth : Nat} {stop : Kind} (rounds : Nat) {cursor : Cursor}
    (ends : upcoming cursor.ahead = stop) :
    ReachesEnd depth stop rounds cursor [] cursor.ahead := by
  refine .inl ⟨cursor, ?_, Quiet.refl cursor, rfl⟩
  cases rounds with
  | zero => rfl
  | succ rounds =>
      have stopped : cursor.current.kind = stop ∨ cursor.current.kind = .endOfInput := .inl ends
      rw [statementsFor, outcome_current_bind, if_pos stopped]
      rfl

/-- Running out of levels in a statement ends the block around it, or is a mistake outside all
blocks. -/
theorem reachesEnd_exhausted {depth : Nat} {stop : Kind} {rounds : Nat} {cursor : Cursor}
    {nodes : List Node} {rest : List Token}
    (more : ¬(cursor.current.kind = stop ∨ cursor.current.kind = .endOfInput))
    (exhausted : Exhausted (statement (expression depth)) cursor) :
    ReachesEnd depth stop (rounds + 1) cursor nodes rest := by
  obtain ⟨stopped, shape⟩ := exhausted
  by_cases outermost : cursor.openBlocks = 0
  · refine .inr (.inr ⟨outermost, ?_⟩)
    have skipped : outcome (attempt (expression depth)) cursor =
        (.ok none, ((stopped.record .tooDeep).closeAllBlocks).drop) := by
      rw [outcome_attempt, shape]
      exact if_pos outermost
    rw [statementsFor, outcome_current_bind, if_neg more, outcome_bind_ok skipped]
    have orderly := orderly_statementsFor (orderly_expression depth) stop rounds
    exact (orderly.follows rfl).mistakes.subset (List.mem_append_right _ List.mem_cons_self)
  · refine .inr (.inl ⟨outermost, stopped, ?_⟩)
    have thrown : outcome (attempt (expression depth)) cursor = (.error .tooDeep, stopped) := by
      rw [outcome_attempt, shape]
      exact if_neg outermost
    rw [statementsFor, outcome_current_bind, if_neg more, outcome_bind, thrown]

theorem reachesEnd_cons {depth : Nat} {stop : Kind} {rounds : Nat} {cursor : Cursor} {node : Node}
    {nodes : List Node} {after rest : List Token}
    (more : ¬(cursor.current.kind = stop ∨ cursor.current.kind = .endOfInput))
    (first : Reaches (statement (expression depth)) cursor node after)
    (further : ∀ {cursor}, cursor.ahead = after → ReachesEnd depth stop rounds cursor nodes rest) :
    ReachesEnd depth stop (rounds + 1) cursor (node :: nodes) rest := by
  rcases first with ⟨middle, shape, quiet, tail⟩ | exhausted
  · have kept : outcome (attempt (expression depth)) cursor = (.ok (some node), middle) := by
      rw [outcome_attempt, shape]
    have unfolded : outcome (statementsFor (expression depth) stop (rounds + 1)) cursor =
        outcome (statementsFor (expression depth) stop rounds >>= fun rest => pure (node :: rest))
          middle.advance := by
      rw [statementsFor, outcome_current_bind, if_neg more, outcome_bind_ok kept]
      rfl
    have passed := quiet.trans (Quiet.advance middle)
    rcases @further middle.advance tail with
      ⟨reached, read, later, ends⟩ | ⟨inside, exhausted⟩ | ⟨outermost, recorded⟩
    · refine .inl ⟨reached, ?_, passed.trans later, ends⟩
      rw [unfolded, outcome_bind_ok read]
      rfl
    · obtain ⟨stopped, thrown⟩ := exhausted.bind fun rest => pure (node :: rest)
      refine .inr (.inl ⟨?_, stopped, unfolded.trans thrown⟩)
      rw [← passed.openBlocks]
      exact inside
    · refine .inr (.inr ⟨?_, ?_⟩)
      · rw [← passed.openBlocks]
        exact outermost
      · rw [unfolded, outcome_bind]
        rcases shape : outcome (statementsFor (expression depth) stop rounds) middle.advance with
          ⟨refusal | others, last⟩
        · rw [shape] at recorded
          exact recorded
        · rw [shape] at recorded
          exact recorded
  · exact reachesEnd_exhausted more exhausted

/-- Of what a statement starts with, only two kinds continue an expression before it. -/
theorem starter_stops : ∀ kind ∈ Kind.letWord :: .returnWord :: starters,
    kind ≠ .minus → kind ≠ .openParen →
      ((Precedence.ofKind kind).rank ≤ Precedence.lowest.rank ∧ kind ≠ .elseWord) ∧
        kind ≠ .semicolon := by
  decide

/-- A statement without a semicolon ends where the statements after it start. -/
theorem statements_follow {rest after : List Token} {nodes : List Node}
    (derives : Derives rest (.statements nodes)) (separate : Separate rest)
    (ends : upcoming after = .closeBrace ∨ upcoming after = .endOfInput) :
    Stops (rest ++ after) ∧ upcoming (rest ++ after) ≠ .semicolon := by
  have started : ∀ {first more : List Token} {node : Node}, Derives first (.statement node) →
      Separate (first ++ more) →
      Stops (first ++ more ++ after) ∧ upcoming (first ++ more ++ after) ≠ .semicolon := by
    intro first more node statement separate
    obtain ⟨token, others, rfl, starts⟩ := statement.statement_starts
    obtain ⟨minus, opens⟩ := separate token rfl
    have next : upcoming (token :: others ++ more ++ after) = token.kind := rfl
    rw [Stops, upcomingRank, next]
    exact starter_stops token.kind starts minus opens
  cases derives with
  | noStatements =>
      rw [List.nil_append]
      rcases ends with kind | kind <;> exact ⟨stops_of_kind kind (by decide), by rw [kind]; decide⟩
  | ended ends initial further => exact started initial separate
  | unended apart initial further => exact started initial separate

theorem pastSemicolon_cons {semicolon : Token} (ends : semicolon.kind = .semicolon)
    (rest : List Token) : pastSemicolon (semicolon :: rest) = rest := by
  have kind : upcoming (semicolon :: rest) = .semicolon := ends
  rw [pastSemicolon, if_pos kind]
  rfl

/-- A statement starts with no token that ends statements. -/
theorem statement_more {first after : List Token} {node : Node} {stop : Kind} {cursor : Cursor}
    (derives : Derives first (.statement node)) (ahead : cursor.ahead = first ++ after)
    (stopper : stop = .closeBrace ∨ stop = .endOfInput) :
    ¬(cursor.current.kind = stop ∨ cursor.current.kind = .endOfInput) := by
  obtain ⟨token, rest, rfl, starts⟩ := derives.statement_starts
  have other : ∀ kind ∈ Kind.letWord :: .returnWord :: starters,
      kind ≠ .closeBrace ∧ kind ≠ .endOfInput := by decide
  obtain ⟨brace, last⟩ := other token.kind starts
  rw [current_eq ahead]
  rcases stopper with rfl | rfl
  · exact not_or.mpr ⟨brace, last⟩
  · exact not_or.mpr ⟨last, last⟩

theorem statement_length_pos {first : List Token} {node : Node}
    (derives : Derives first (.statement node)) : 0 < first.length := by
  obtain ⟨token, rest, rfl, _⟩ := derives.statement_starts
  exact Nat.succ_pos _

theorem read_ended {semicolon : Token} (ends : semicolon.kind = .semicolon)
    {first rest : List Token} {node : Node} {nodes : List Node}
    (derives : Derives first (.statement node)) (initial : Read first (.statement node))
    (further : Read rest (.statements nodes)) :
    Read (first ++ semicolon :: rest) (.statements (node :: nodes)) := by
  intro depth stop rounds cursor after ahead follow stopper bound
  simp only [List.append_assoc, List.cons_append, List.length_append,
    List.length_cons] at ahead bound
  cases rounds with
  | zero => omega
  | succ rounds =>
      have stops : Stops (semicolon :: (rest ++ after)) := stops_of_kind ends (by decide)
      apply reachesEnd_cons (statement_more derives ahead stopper) (initial ahead stops)
      intro cursor ahead
      rw [pastSemicolon_cons ends] at ahead
      exact further ahead follow stopper (by omega)

theorem read_unended {first rest : List Token} {node : Node} {nodes : List Node}
    (separate : Separate rest) (derives : Derives first (.statement node))
    (others : Derives rest (.statements nodes)) (initial : Read first (.statement node))
    (further : Read rest (.statements nodes)) :
    Read (first ++ rest) (.statements (node :: nodes)) := by
  intro depth stop rounds cursor after ahead follow stopper bound
  simp only [List.append_assoc, List.length_append] at ahead bound
  have positive := statement_length_pos derives
  cases rounds with
  | zero => omega
  | succ rounds =>
      have ends : upcoming after = .closeBrace ∨ upcoming after = .endOfInput := by
        rw [follow]
        exact stopper
      obtain ⟨stops, unmarked⟩ := statements_follow others separate ends
      apply reachesEnd_cons (statement_more derives ahead stopper) (initial ahead stops)
      intro cursor ahead
      rw [pastSemicolon, if_neg unmarked] at ahead
      exact further ahead follow stopper (by omega)

theorem read_block {opening closing : Token} (closes : closing.kind = .closeBrace)
    {tokens : List Token} {nodes : List Node} (inner : Read tokens (.statements nodes)) :
    Read (opening :: tokens ++ [closing]) (.block (.block opening nodes)) := by
  intro depth cursor rest ahead
  simp only [List.cons_append, List.append_assoc, List.nil_append] at ahead
  have current := current_eq ahead
  have inside : cursor.advance.openBlock.ahead = tokens ++ closing :: rest := advance_ahead ahead
  have room : tokens.length ≤ cursor.advance.openBlock.ahead.length := by
    rw [inside, List.length_append]
    omega
  have unfolded : outcome (statements (expression depth) .closeBrace) cursor.advance.openBlock =
      outcome (statementsFor (expression depth) .closeBrace
        cursor.advance.openBlock.ahead.length) cursor.advance.openBlock := by
    rw [statements, outcome_remaining_bind]
  rcases inner inside closes (.inl rfl) room with
    ⟨reached, read, quiet, ends⟩ | ⟨_, stopped, thrown⟩ | ⟨outermost, _⟩
  · have closed : reached.current.kind = .closeBrace := by
      rw [current_eq ends]
      exact closes
    have balanced : reached.closeBlock.openBlocks = cursor.openBlocks := by
      have same : reached.openBlocks = cursor.openBlocks + 1 := quiet.openBlocks
      have less : reached.closeBlock.openBlocks = reached.openBlocks - 1 := rfl
      omega
    refine .inl ⟨reached.closeBlock, ?_, ⟨quiet.mistakes, balanced⟩, congrArg List.tail ends⟩
    rw [outcome_block, unfolded, read, current]
    exact if_pos closed
  · refine .inr ⟨stopped, ?_⟩
    rw [outcome_block, unfolded, thrown]
  · have opened : cursor.advance.openBlock.openBlocks = cursor.openBlocks + 1 := rfl
    omega

theorem Derives.read {tokens : List Token} {phrase : Phrase} (derives : Derives tokens phrase) :
    Read tokens phrase := by
  induction derives with
  | tighter inner ih => exact read_tighter ih
  | binary operates first second ih ih' => exact read_binary operates ih ih'
  | unary operates operand ih => exact read_unary operates ih
  | call opens closes first second ih ih' => exact read_call opens closes ih ih'
  | name kind => exact read_name kind
  | number kind nonempty digits bound => exact read_number kind nonempty digits bound
  | affirmation kind => exact read_truth (.inl ⟨kind, rfl⟩)
  | negation kind => exact read_truth (.inr ⟨kind, rfl⟩)
  | group opens closes inner ih => exact read_grouped opens closes ih
  | conditional starts opens closes tested chosen ih ih' =>
      exact read_conditional starts opens closes chosen.block_starts ih ih'
  | alternative starts opens closes divides tested chosen otherwise ih ih' ih'' =>
      exact read_alternative starts opens closes divides chosen.block_starts
        otherwise.block_starts ih ih' ih''
  | function starts opens closes parameters inner ih ih' =>
      exact read_function starts opens closes inner.block_starts ih ih'
  | noArguments =>
      intro depth cursor rest tail closes
      exact reaches_listed_nil tail closes
  | arguments initial further ih ih' =>
      refine read_arguments ?_ further ih ih'
      intro rest
      obtain ⟨token, others, rfl, starts⟩ := initial.starts
      intro closes
      have kind : token.kind = .closeParen := closes
      rw [kind] at starts
      exact absurd starts (by decide)
  | lastArgument =>
      intro depth rounds cursor rest tail closes _
      exact reaches_itemsAfter_nil rounds tail (by rw [closes]; decide)
  | furtherArguments divides following further ih ih' =>
      exact read_furtherArguments divides further ih ih'
  | noParameters =>
      intro cursor rest tail closes
      exact reaches_listed_nil tail closes
  | parameters kind further ih => exact read_parameters kind ih
  | lastParameter =>
      intro rounds cursor rest tail closes _
      exact reaches_itemsAfter_nil rounds tail (by rw [closes]; decide)
  | furtherParameters divides kind further ih => exact read_furtherParameters divides kind ih
  | block opens closes inner ih => exact read_block closes ih
  | binding starts kind assigns value ih => exact read_binding starts kind assigns ih
  | returning starts value ih => exact read_returning starts ih
  | evaluation value ih =>
      obtain ⟨token, others, shape, starts⟩ := value.starts
      cases shape
      exact read_evaluation starts ih
  | noStatements =>
      intro depth stop rounds cursor rest ahead follow _ _
      have same : cursor.ahead = rest := ahead
      rw [← same] at follow ⊢
      exact reachesEnd_nil rounds follow
  | ended ends initial further ih ih' => exact read_ended ends initial ih ih'
  | unended separate initial further ih ih' => exact read_unended separate initial further ih ih'

end MonkeyLang.Grammar
