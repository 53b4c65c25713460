import MonkeyLang.Proofs.Grammar.Outcome

/-!
Two grammars side by side that differ in the expressions one level further down. A relation between
rules that sequencing, the few primitive rules and the attempt of a statement keep is kept by every
rule (`operand_related`, `climb_related`, `program_related`).
-/

namespace MonkeyLang.Grammar

open Token (Kind)

structure Congruence (related : (α : Type) → Rule α → Rule α → Prop) : Prop where
  pure {α : Type} (value : α) : related α (pure value) (pure value)
  bind {α β : Type} {rule rule' : Rule α} {next next' : α → Rule β} (first : related α rule rule')
    (second : ∀ value, related β (next value) (next' value)) :
    related β (rule >>= next) (rule' >>= next')
  look {α : Type} (view : Cursor → α) :
    related α (do return view (← get)) (do return view (← get))
  advance : related Unit advance advance
  openBlock : related Unit (modify Cursor.openBlock) (modify Cursor.openBlock)
  closeBlock : related Unit (modify Cursor.closeBlock) (modify Cursor.closeBlock)
  refuse {α : Type} (mistake : Mistake) (bounded : mistake ≠ .tooDeep) :
    related α (refuse mistake) (refuse mistake)
  attempt {sub sub' : Precedence → Rule Node}
    (inner : related Node (statement sub) (statement sub')) :
    related (Option Node) (attempt sub) (attempt sub')

section

variable {related : (α : Type) → Rule α → Rule α → Prop} (closed : Congruence related) {α : Type}

include closed

theorem current_related : related Token current current := closed.look Cursor.current

theorem peek_related : related Token peek peek := closed.look Cursor.peek

theorem remaining_related : related Nat remaining remaining := closed.look (·.ahead.length)

omit closed in
theorem ite_related {condition : Prop} [Decidable condition] {yes yes' no no' : Rule α}
    (first : related α yes yes') (second : related α no no') :
    related α (if condition then yes else no) (if condition then yes' else no') := by
  split
  · exact first
  · exact second

theorem expect_related (kind : Kind) : related Unit (expect kind) (expect kind) := by
  apply closed.bind (peek_related closed)
  intro next
  exact ite_related closed.advance (closed.refuse _ nofun)

theorem passSemicolon_related : related Unit passSemicolon passSemicolon := by
  apply closed.bind (peek_related closed)
  intro next
  exact ite_related closed.advance (closed.pure ())

theorem identifier_related : related Identifier identifier identifier :=
  closed.bind (current_related closed) fun _ => closed.pure _

theorem number_related : related Node number number := by
  apply closed.bind (current_related closed)
  intro token
  split
  · exact closed.pure _
  · exact closed.refuse _ nofun

theorem truth_related : related Node truth truth :=
  closed.bind (current_related closed) fun _ => closed.pure _

theorem itemsAfter_related {item item' : Rule α} (one : related α item item') (rounds : Nat) :
    related (List α) (itemsAfter item rounds) (itemsAfter item' rounds) := by
  induction rounds with
  | zero => exact closed.pure []
  | succ rounds ih =>
      apply closed.bind (peek_related closed)
      intro next
      refine ite_related ?_ (closed.pure [])
      apply closed.bind closed.advance
      intro _
      apply closed.bind one
      intro first
      exact closed.bind ih fun rest => closed.pure _

theorem listed_related {item item' : Rule α} (one : related α item item') :
    related (List α) (listed item) (listed item') := by
  apply closed.bind (peek_related closed)
  intro next
  apply ite_related
  · exact closed.bind closed.advance fun _ => closed.pure []
  · apply closed.bind one
    intro first
    apply closed.bind (remaining_related closed)
    intro rounds
    apply closed.bind (itemsAfter_related closed one rounds)
    intro rest
    exact closed.bind (expect_related closed .closeParen) fun _ => closed.pure _

theorem parameters_related : related (List Identifier) parameters parameters :=
  listed_related closed
    (closed.bind (expect_related closed .name) fun _ => identifier_related closed)

variable {sub sub' : Precedence → Rule Node}
  (level : ∀ precedence, related Node (sub precedence) (sub' precedence))

include level

theorem arguments_related : related (List Node) (arguments sub) (arguments sub') :=
  listed_related closed (closed.bind closed.advance fun _ => level .lowest)

theorem letStatement_related : related Node (letStatement sub) (letStatement sub') := by
  apply closed.bind (current_related closed)
  intro token
  apply closed.bind (expect_related closed .name)
  intro _
  apply closed.bind (identifier_related closed)
  intro target
  apply closed.bind (expect_related closed .assign)
  intro _
  apply closed.bind closed.advance
  intro _
  apply closed.bind (level .lowest)
  intro value
  exact closed.bind (passSemicolon_related closed) fun _ => closed.pure _

theorem returnStatement_related : related Node (returnStatement sub) (returnStatement sub') := by
  apply closed.bind (current_related closed)
  intro token
  apply closed.bind closed.advance
  intro _
  apply closed.bind (level .lowest)
  intro value
  exact closed.bind (passSemicolon_related closed) fun _ => closed.pure _

theorem expressionStatement_related :
    related Node (expressionStatement sub) (expressionStatement sub') := by
  apply closed.bind (current_related closed)
  intro token
  apply closed.bind (level .lowest)
  intro expression
  exact closed.bind (passSemicolon_related closed) fun _ => closed.pure _

theorem statement_related : related Node (statement sub) (statement sub') := by
  apply closed.bind (current_related closed)
  intro token
  split
  · exact letStatement_related closed level
  · exact returnStatement_related closed level
  · exact expressionStatement_related closed level

theorem statementsFor_related (stop : Kind) (rounds : Nat) :
    related (List Node) (statementsFor sub stop rounds) (statementsFor sub' stop rounds) := by
  induction rounds with
  | zero => exact closed.pure []
  | succ rounds ih =>
      apply closed.bind (current_related closed)
      intro token
      apply ite_related (closed.pure [])
      apply closed.bind (closed.attempt (statement_related closed level))
      intro attempted
      cases attempted with
      | none => exact ih
      | some first =>
          apply closed.bind closed.advance
          intro _
          exact closed.bind ih fun rest => closed.pure _

theorem statements_related (stop : Kind) :
    related (List Node) (statements sub stop) (statements sub' stop) :=
  closed.bind (remaining_related closed) fun rounds =>
    statementsFor_related closed level stop rounds

theorem program_related : related Node (program sub) (program sub') :=
  closed.bind (statements_related closed level .endOfInput) fun _ => closed.pure _

theorem block_related : related Node (block sub) (block sub') := by
  apply closed.bind (current_related closed)
  intro token
  apply closed.bind closed.advance
  intro _
  apply closed.bind closed.openBlock
  intro _
  apply closed.bind (statements_related closed level .closeBrace)
  intro inner
  apply closed.bind closed.closeBlock
  intro _
  apply closed.bind (current_related closed)
  intro last
  exact ite_related (closed.pure _) (closed.refuse _ nofun)

theorem unary_related : related Node (unary sub) (unary sub') := by
  apply closed.bind (current_related closed)
  intro token
  apply closed.bind closed.advance
  intro _
  exact closed.bind (level .unary) fun operand => closed.pure _

theorem grouped_related : related Node (grouped sub) (grouped sub') := by
  apply closed.bind closed.advance
  intro _
  apply closed.bind (level .lowest)
  intro inner
  exact closed.bind (expect_related closed .closeParen) fun _ => closed.pure _

theorem conditional_related : related Node (conditional sub) (conditional sub') := by
  apply closed.bind (current_related closed)
  intro token
  apply closed.bind (expect_related closed .openParen)
  intro _
  apply closed.bind closed.advance
  intro _
  apply closed.bind (level .lowest)
  intro condition
  apply closed.bind (expect_related closed .closeParen)
  intro _
  apply closed.bind (expect_related closed .openBrace)
  intro _
  apply closed.bind (block_related closed level)
  intro consequence
  apply closed.bind (peek_related closed)
  intro next
  refine ite_related ?_ (closed.pure _)
  apply closed.bind closed.advance
  intro _
  apply closed.bind (expect_related closed .openBrace)
  intro _
  exact closed.bind (block_related closed level) fun alternative => closed.pure _

theorem function_related : related Node (function sub) (function sub') := by
  apply closed.bind (current_related closed)
  intro token
  apply closed.bind (expect_related closed .openParen)
  intro _
  apply closed.bind (parameters_related closed)
  intro names
  apply closed.bind (expect_related closed .openBrace)
  intro _
  exact closed.bind (block_related closed level) fun body => closed.pure _

theorem operand_related : related Node (operand sub) (operand sub') := by
  apply closed.bind (current_related closed)
  intro token
  split
  · exact closed.bind (identifier_related closed) fun _ => closed.pure _
  · exact number_related closed
  · exact truth_related closed
  · exact truth_related closed
  · exact unary_related closed level
  · exact unary_related closed level
  · exact grouped_related closed level
  · exact conditional_related closed level
  · exact function_related closed level
  · exact closed.refuse _ nofun

theorem extend_related (left : Node) : related Node (extend sub left) (extend sub' left) := by
  apply closed.bind (current_related closed)
  intro token
  apply ite_related
  · apply closed.bind (current_related closed)
    intro opening
    exact closed.bind (arguments_related closed level) fun given => closed.pure _
  · apply closed.bind (current_related closed)
    intro operator
    apply closed.bind closed.advance
    intro _
    exact closed.bind (level _) fun right => closed.pure _

theorem climb_related (precedence : Precedence) (rounds : Nat) (left : Node) :
    related Node (climb sub precedence rounds left) (climb sub' precedence rounds left) := by
  induction rounds generalizing left with
  | zero => exact closed.pure left
  | succ rounds ih =>
      apply closed.bind (peek_related closed)
      intro next
      refine ite_related ?_ (closed.pure left)
      apply closed.bind closed.advance
      intro _
      exact closed.bind (extend_related closed level left) fun wider => ih wider

end

end MonkeyLang.Grammar
