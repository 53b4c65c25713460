import MonkeyLang.Proofs.Grammar.Reaching
import MonkeyLang.Proofs.Grammar.Rounds

/-!
Two readings side by side. A pairing says what two cursors have in common at each kind of place that
rules come to. A pairing that the steps of cursors keep (`Pairing.Steps`) is kept by every rule, and
the two readings give the same trees and are refused alike (`carries_expression`,
`carries_statement`).
-/

namespace MonkeyLang.Grammar

open Token (Kind)

/-- The kinds of tokens that neither end a statement or the input nor bound a block. -/
def isPlain : Kind → Bool
  | .semicolon | .openBrace | .closeBrace | .endOfInput => false
  | _ => true

theorem isPlain_of_continues {precedence : Precedence} {kind : Kind}
    (continues : precedence.rank < (Precedence.ofKind kind).rank) : isPlain kind = true := by
  have bound := precedence.rank_pos
  cases kind <;> first
    | rfl
    | exact absurd (Nat.lt_of_le_of_lt bound continues) (by decide)

structure Pairing where
  /-- The current token is yet to be read. -/
  unread : Cursor → Cursor → Prop
  /-- The current token is the last one that was read. -/
  read : Cursor → Cursor → Prop
  /-- The current token is the last one of a statement, which may be its semicolon. -/
  ended : Cursor → Cursor → Prop
  refused : Cursor → Cursor → Prop
  /-- No level was left. -/
  cut : Cursor → Cursor → Prop

namespace Pairing

structure Steps (pairing : Pairing) : Prop where
  current_unread {c c' : Cursor} : pairing.unread c c' → c.current = c'.current
  current_read {c c' : Cursor} : pairing.read c c' → c.current = c'.current
  peek_read {c c' : Cursor} : pairing.read c c' → c.peek = c'.peek
  take {c c' : Cursor} : pairing.unread c c' → isPlain c.current.kind = true → pairing.read c c'
  advance {c c' : Cursor} : pairing.read c c' → pairing.unread c.advance c'.advance
  refuse_unread {c c' : Cursor} (mistake : Mistake) :
    pairing.unread c c' → pairing.refused (c.record mistake) (c'.record mistake)
  refuse_read {c c' : Cursor} (mistake : Mistake) :
    pairing.read c c' → pairing.refused (c.record mistake) (c'.record mistake)
  finish {c c' : Cursor} : pairing.read c c' → pairing.ended c c'
  finish_semicolon {c c' : Cursor} :
    pairing.read c c' → c.peek.kind = .semicolon → pairing.ended c.advance c'.advance
  tooDeep {c c' : Cursor} : pairing.unread c c' → pairing.cut c c'
  enter {c c' : Cursor} : pairing.unread c c' → c.current.kind = .openBrace →
    pairing.unread c.advance.openBlock c'.advance.openBlock
  inside {c c' : Cursor} : pairing.unread c c' → 0 < c.openBlocks → 0 < c'.openBlocks
  onward {c c' : Cursor} :
    pairing.ended c c' → 0 < c.openBlocks → pairing.unread c.advance c'.advance
  skip {c c' : Cursor} : pairing.refused c c' → 0 < c.openBlocks → pairing.unread c.drop c'.drop
  leave {c c' : Cursor} : pairing.unread c c' → 0 < c.openBlocks →
    c.current.kind = .closeBrace → pairing.read c.closeBlock c'.closeBlock
  unclosed {c c' : Cursor} (mistake : Mistake) : pairing.unread c c' → 0 < c.openBlocks →
    pairing.refused (c.closeBlock.record mistake) (c'.closeBlock.record mistake)

/-- What two runs of a rule come to. -/
inductive Matches (pairing : Pairing) {α : Type} (after : Cursor → Cursor → Prop) :
    Except Refusal α × Cursor → Except Refusal α × Cursor → Prop
  | accepted (value : α) {c c' : Cursor} (related : after c c') :
      Matches pairing after (.ok value, c) (.ok value, c')
  | refused {c c' : Cursor} (related : pairing.refused c c') :
      Matches pairing after (.error .malformed, c) (.error .malformed, c')
  | cut {c c' : Cursor} (related : pairing.cut c c') :
      Matches pairing after (.error .tooDeep, c) (.error .tooDeep, c')

def Carries (pairing : Pairing) {α : Type} (before after : Cursor → Cursor → Prop)
    (rule : Rule α) : Prop :=
  ∀ c c', before c c' → pairing.Matches after (outcome rule c) (outcome rule c')

variable {pairing : Pairing} {α β : Type} {before middle after : Cursor → Cursor → Prop}

theorem carries_pure (value : α) : pairing.Carries before before (pure value) :=
  fun _ _ related => .accepted value related

/-- What else is known of the two cursors does no harm. -/
theorem carries_knowing {fact : Cursor → Cursor → Prop} {rule : Rule α}
    (carries : pairing.Carries before after rule) :
    pairing.Carries (fun c c' => before c c' ∧ fact c c') after rule :=
  fun c c' related => carries c c' related.1

theorem carries_bind {rule : Rule α} {next : α → Rule β}
    (first : pairing.Carries before middle rule)
    (second : ∀ value, pairing.Carries middle after (next value)) :
    pairing.Carries before after (rule >>= next) := by
  intro c c' related
  have matched := first c c' related
  rw [outcome_bind, outcome_bind]
  generalize outcome rule c = half at matched
  generalize outcome rule c' = half' at matched
  cases matched with
  | accepted value related' => exact second value _ _ related'
  | refused related' => exact .refused related'
  | cut related' => exact .cut related'

theorem carries_map {change : α → β} {rule : Rule α} (carries : pairing.Carries before after rule) :
    pairing.Carries before after (change <$> rule) := by
  rw [map_eq_pure_bind]
  exact carries_bind carries fun value => carries_pure _

theorem carries_ite {condition : Prop} [Decidable condition] {yes no : Rule α}
    (first : condition → pairing.Carries before after yes)
    (second : ¬condition → pairing.Carries before after no) :
    pairing.Carries before after (if condition then yes else no) := by
  split
  · exact first ‹_›
  · exact second ‹_›

/-- As many rounds as there are tokens ahead are as good as any greater number. -/
theorem carries_remaining {next : Nat → Rule β}
    (enough : ∀ {c c' : Cursor} {rounds : Nat}, before c c' → ∀ cursor ∈ [c, c'],
      cursor.ahead.length ≤ rounds →
        outcome (next cursor.ahead.length) cursor = outcome (next rounds) cursor)
    (carries : ∀ rounds, pairing.Carries before after (next rounds)) :
    pairing.Carries before after (remaining >>= next) := by
  intro c c' related
  rw [outcome_remaining_bind, outcome_remaining_bind,
    enough related c (by simp) (Nat.le_max_left _ c'.ahead.length),
    enough related c' (by simp) (Nat.le_max_right c.ahead.length _)]
  exact carries _ c c' related

section

variable (steps : pairing.Steps)
include steps

theorem carries_current {next : Token → Rule β}
    (carries : ∀ token, pairing.Carries pairing.read after (next token)) :
    pairing.Carries pairing.read after (current >>= next) := by
  intro c c' related
  rw [outcome_current_bind, outcome_current_bind, ← steps.current_read related]
  exact carries _ c c' related

theorem carries_upcoming {next : Token → Rule β}
    (carries : ∀ token, pairing.Carries
      (fun c c' => pairing.unread c c' ∧ c.current = token) after (next token)) :
    pairing.Carries pairing.unread after (current >>= next) := by
  intro c c' related
  rw [outcome_current_bind, outcome_current_bind, ← steps.current_unread related]
  exact carries _ c c' ⟨related, rfl⟩

theorem carries_peek {next : Token → Rule β}
    (carries : ∀ token, pairing.Carries
      (fun c c' => pairing.read c c' ∧ c.peek = token) after (next token)) :
    pairing.Carries pairing.read after (peek >>= next) := by
  intro c c' related
  rw [outcome_peek_bind, outcome_peek_bind, ← steps.peek_read related]
  exact carries _ c c' ⟨related, rfl⟩

theorem carries_advance : pairing.Carries pairing.read pairing.unread advance :=
  fun _ _ related => .accepted () (steps.advance related)

/-- A token that is plain may be taken as read. -/
theorem carries_taken {rule : Rule α} {token : Token} (plain : isPlain token.kind = true)
    (carries : pairing.Carries pairing.read after rule) :
    pairing.Carries (fun c c' => pairing.unread c c' ∧ c.current = token) after rule := by
  rintro c c' ⟨related, rfl⟩
  exact carries c c' (steps.take related plain)

theorem carries_pass {token : Token} (plain : isPlain token.kind = true) :
    pairing.Carries (fun c c' => pairing.read c c' ∧ c.peek = token) pairing.read advance := by
  rintro c c' ⟨related, rfl⟩
  exact .accepted () (steps.take (steps.advance related) plain)

theorem carries_refuse_unread (mistake : Mistake) :
    pairing.Carries pairing.unread after (refuse mistake : Rule α) := by
  intro c c' related
  rw [outcome_refuse, outcome_refuse]
  exact .refused (steps.refuse_unread mistake related)

theorem carries_refuse_read (mistake : Mistake) :
    pairing.Carries pairing.read after (refuse mistake : Rule α) := by
  intro c c' related
  rw [outcome_refuse, outcome_refuse]
  exact .refused (steps.refuse_read mistake related)

theorem carries_expect {kind : Kind} (plain : isPlain kind = true) :
    pairing.Carries pairing.read pairing.read (expect kind) := by
  apply carries_peek steps
  intro token
  apply carries_ite
  · intro found
    exact carries_pass steps (by rwa [found])
  · intro _
    exact carries_knowing (carries_refuse_read steps _)

theorem carries_openBrace :
    pairing.Carries pairing.read
      (fun c c' => pairing.unread c c' ∧ c.current.kind = .openBrace) (expect .openBrace) := by
  apply carries_peek steps
  intro token
  apply carries_ite
  · rintro found c c' ⟨related, rfl⟩
    exact .accepted () ⟨steps.advance related, found⟩
  · intro _
    exact carries_knowing (carries_refuse_read steps _)

theorem carries_passSemicolon : pairing.Carries pairing.read pairing.ended passSemicolon := by
  apply carries_peek steps
  intro token
  apply carries_ite
  · rintro found c c' ⟨related, rfl⟩
    exact .accepted () (steps.finish_semicolon related found)
  · rintro _ c c' ⟨related, -⟩
    exact .accepted () (steps.finish related)

theorem carries_identifier : pairing.Carries pairing.read pairing.read identifier :=
  carries_current steps fun _ => carries_pure _

theorem carries_number : pairing.Carries pairing.read pairing.read number := by
  apply carries_current steps
  intro token
  split
  · exact carries_pure _
  · exact carries_refuse_read steps _

theorem carries_truth : pairing.Carries pairing.read pairing.read truth :=
  carries_current steps fun _ => carries_pure _

theorem carries_itemsAfter {item : Rule α}
    (carries : pairing.Carries pairing.read pairing.read item) (rounds : Nat) :
    pairing.Carries pairing.read pairing.read (itemsAfter item rounds) := by
  induction rounds with
  | zero => exact carries_pure _
  | succ rounds ih =>
      apply carries_peek steps
      intro next
      apply carries_ite
      · intro divides
        apply carries_bind (carries_pass steps (by rw [divides]; rfl))
        intro _
        apply carries_bind carries
        intro first
        exact carries_bind ih fun rest => carries_pure _
      · intro _
        exact carries_knowing (carries_pure [])

theorem carries_listed {item : Rule α} (orderly : Orderly item)
    (carries : pairing.Carries pairing.read pairing.read item) :
    pairing.Carries pairing.read pairing.read (listed item) := by
  apply carries_peek steps
  intro next
  apply carries_ite
  · intro closes
    apply carries_bind (carries_pass steps (by rw [closes]; rfl))
    intro _
    exact carries_pure []
  · intro _
    apply carries_knowing
    apply carries_bind carries
    intro first
    apply carries_remaining
    · intro c c' rounds _ cursor _ bound
      have tail : cursor.ahead.tail.length ≤ cursor.ahead.length := by simp
      rw [outcome_bind, outcome_bind, itemsAfter_enough orderly tail (Nat.le_trans tail bound)]
    · intro rounds
      apply carries_bind (carries_itemsAfter steps carries rounds)
      intro rest
      exact carries_bind (carries_expect steps rfl) fun _ => carries_pure _

theorem carries_parameters : pairing.Carries pairing.read pairing.read parameters := by
  apply carries_listed steps (orderly_bind (orderly_expect _) fun _ => orderly_identifier)
  exact carries_bind (carries_expect steps rfl) fun _ => carries_identifier steps

variable {sub : Precedence → Rule Node} (orderly : ∀ precedence, Orderly (sub precedence))
  (level : ∀ precedence, pairing.Carries pairing.unread pairing.read (sub precedence))
include level

theorem carries_letStatement : pairing.Carries pairing.read pairing.ended (letStatement sub) := by
  apply carries_current steps
  intro token
  apply carries_bind (carries_expect steps rfl)
  intro _
  apply carries_bind (carries_identifier steps)
  intro target
  apply carries_bind (carries_expect steps rfl)
  intro _
  apply carries_bind (carries_advance steps)
  intro _
  apply carries_bind (level .lowest)
  intro value
  exact carries_bind (carries_passSemicolon steps) fun _ => carries_pure _

theorem carries_returnStatement :
    pairing.Carries pairing.read pairing.ended (returnStatement sub) := by
  apply carries_current steps
  intro token
  apply carries_bind (carries_advance steps)
  intro _
  apply carries_bind (level .lowest)
  intro value
  exact carries_bind (carries_passSemicolon steps) fun _ => carries_pure _

theorem carries_expressionStatement :
    pairing.Carries pairing.unread pairing.ended (expressionStatement sub) := by
  apply carries_upcoming steps
  intro token
  apply carries_knowing
  apply carries_bind (level .lowest)
  intro expression
  exact carries_bind (carries_passSemicolon steps) fun _ => carries_pure _

theorem carries_statement : pairing.Carries pairing.unread pairing.ended (statement sub) := by
  apply carries_upcoming steps
  intro token
  split
  · rename_i kind
    exact carries_taken steps (by rw [kind]; rfl) (carries_letStatement steps level)
  · rename_i kind
    exact carries_taken steps (by rw [kind]; rfl) (carries_returnStatement steps level)
  · exact carries_knowing (carries_expressionStatement steps level)

theorem carries_unary : pairing.Carries pairing.read pairing.read (unary sub) := by
  apply carries_current steps
  intro token
  apply carries_bind (carries_advance steps)
  intro _
  exact carries_bind (level .unary) fun operand => carries_pure _

theorem carries_grouped : pairing.Carries pairing.read pairing.read (grouped sub) := by
  apply carries_bind (carries_advance steps)
  intro _
  apply carries_bind (level .lowest)
  intro inner
  exact carries_bind (carries_expect steps rfl) fun _ => carries_pure _

include orderly

theorem carries_arguments : pairing.Carries pairing.read pairing.read (arguments sub) := by
  apply carries_listed steps (orderly_bind orderly_advance fun _ => orderly .lowest)
  exact carries_bind (carries_advance steps) fun _ => level .lowest

/-- Statements inside a block. Those that are left out are left out of both readings. -/
theorem carries_statementsFor (rounds : Nat) :
    pairing.Carries (fun c c' => pairing.unread c c' ∧ 0 < c.openBlocks) pairing.unread
      (statementsFor sub .closeBrace rounds) := by
  induction rounds with
  | zero => exact carries_knowing (carries_pure [])
  | succ rounds ih =>
      rintro c c' ⟨related, inside⟩
      have same := steps.current_unread related
      by_cases ends : c.current.kind = .closeBrace ∨ c.current.kind = .endOfInput
      · rw [statementsFor_stops sub _ ends, statementsFor_stops sub _ (by rwa [← same])]
        exact .accepted [] related
      rw [statementsFor_continues sub rounds ends,
        statementsFor_continues sub rounds (by rwa [← same]), outcome_attempt, outcome_attempt]
      simp only [Nat.ne_of_gt inside, Nat.ne_of_gt (steps.inside related inside), if_false]
      have balanced : ∀ {result reached}, outcome (statement sub) c = (result, reached) →
          result ≠ .error .tooDeep → 0 < reached.openBlocks := by
        intro result reached read allowed
        rwa [(orderly_statement orderly).balanced read allowed]
      have matched := carries_statement steps level c c' related
      generalize outcome (statement sub) c = half at matched balanced
      generalize outcome (statement sub) c' = half' at matched
      cases matched with
      | accepted node related' =>
          have deep := balanced rfl fun wrong => by cases wrong
          exact carries_map ih _ _ ⟨steps.onward related' deep, deep⟩
      | refused related' =>
          have deep := balanced rfl fun wrong => by cases wrong
          exact ih _ _ ⟨steps.skip related' deep, deep⟩
      | cut related' => exact .cut related'

theorem carries_block :
    pairing.Carries (fun c c' => pairing.unread c c' ∧ c.current.kind = .openBrace) pairing.read
      (block sub) := by
  rintro c c' ⟨related, opens⟩
  have same := steps.current_unread related
  have inside : 0 < c.advance.openBlock.openBlocks := Nat.succ_pos _
  have entered : pairing.Carries (fun c c' => pairing.unread c c' ∧ 0 < c.openBlocks)
      pairing.unread (statements sub .closeBrace) := by
    apply carries_remaining
    · intro d d' rounds _ cursor _ bound
      exact statementsFor_enough orderly (.inl rfl) (Nat.le_refl _) bound
    · exact carries_statementsFor steps orderly level
  have balanced : ∀ {nodes reached},
      outcome (statements sub .closeBrace) c.advance.openBlock = (.ok nodes, reached) →
        0 < reached.openBlocks := by
    intro nodes reached read
    rwa [(orderly_statements orderly _).balanced read fun wrong => by cases wrong]
  have matched := entered _ _ ⟨steps.enter related opens, inside⟩
  rw [outcome_block, outcome_block, ← same]
  generalize outcome (statements sub .closeBrace) c.advance.openBlock = half at matched balanced
  generalize outcome (statements sub .closeBrace) c'.advance.openBlock = half' at matched
  cases matched with
  | accepted nodes related' =>
      have deep := balanced rfl
      simp only [← steps.current_unread related']
      split
      · exact .accepted _ (steps.leave related' deep ‹_›)
      · exact .refused (steps.unclosed _ related' deep)
  | refused related' => exact .refused related'
  | cut related' => exact .cut related'

theorem carries_conditional : pairing.Carries pairing.read pairing.read (conditional sub) := by
  apply carries_current steps
  intro token
  apply carries_bind (carries_expect steps rfl)
  intro _
  apply carries_bind (carries_advance steps)
  intro _
  apply carries_bind (level .lowest)
  intro condition
  apply carries_bind (carries_expect steps rfl)
  intro _
  apply carries_bind (carries_openBrace steps)
  intro _
  apply carries_bind (carries_block steps orderly level)
  intro consequence
  apply carries_peek steps
  intro next
  apply carries_ite
  · intro divides
    apply carries_bind (carries_pass steps (by rw [divides]; rfl))
    intro _
    apply carries_bind (carries_openBrace steps)
    intro _
    exact carries_bind (carries_block steps orderly level) fun alternative => carries_pure _
  · intro _
    exact carries_knowing (carries_pure _)

theorem carries_function : pairing.Carries pairing.read pairing.read (function sub) := by
  apply carries_current steps
  intro token
  apply carries_bind (carries_expect steps rfl)
  intro _
  apply carries_bind (carries_parameters steps)
  intro names
  apply carries_bind (carries_openBrace steps)
  intro _
  exact carries_bind (carries_block steps orderly level) fun body => carries_pure _

theorem carries_operand : pairing.Carries pairing.unread pairing.read (operand sub) := by
  apply carries_upcoming steps
  intro token
  split <;> rename_i kind
  · apply carries_taken steps (by rw [kind]; rfl)
    exact carries_bind (carries_identifier steps) fun _ => carries_pure _
  · exact carries_taken steps (by rw [kind]; rfl) (carries_number steps)
  · exact carries_taken steps (by rw [kind]; rfl) (carries_truth steps)
  · exact carries_taken steps (by rw [kind]; rfl) (carries_truth steps)
  · exact carries_taken steps (by rw [kind]; rfl) (carries_unary steps level)
  · exact carries_taken steps (by rw [kind]; rfl) (carries_unary steps level)
  · exact carries_taken steps (by rw [kind]; rfl) (carries_grouped steps level)
  · exact carries_taken steps (by rw [kind]; rfl) (carries_conditional steps orderly level)
  · exact carries_taken steps (by rw [kind]; rfl) (carries_function steps orderly level)
  · exact carries_knowing (carries_refuse_unread steps _)

theorem carries_extend (left : Node) :
    pairing.Carries pairing.read pairing.read (extend sub left) := by
  apply carries_current steps
  intro token
  apply carries_ite
  · intro _
    apply carries_current steps
    intro opening
    exact carries_bind (carries_arguments steps orderly level) fun given => carries_pure _
  · intro _
    apply carries_current steps
    intro operator
    apply carries_bind (carries_advance steps)
    intro _
    exact carries_bind (level _) fun right => carries_pure _

theorem carries_climb (precedence : Precedence) (rounds : Nat) (left : Node) :
    pairing.Carries pairing.read pairing.read (climb sub precedence rounds left) := by
  induction rounds generalizing left with
  | zero => exact carries_pure _
  | succ rounds ih =>
      apply carries_peek steps
      intro next
      apply carries_ite
      · intro continues
        apply carries_bind (carries_pass steps (isPlain_of_continues continues))
        intro _
        exact carries_bind (carries_extend steps orderly level left) fun wider => ih wider
      · intro _
        exact carries_knowing (carries_pure _)

end

theorem carries_expression (steps : pairing.Steps) (depth : Nat) (precedence : Precedence) :
    pairing.Carries pairing.unread pairing.read (expression depth precedence) := by
  induction depth generalizing precedence with
  | zero => exact fun c c' related => .cut (steps.tooDeep related)
  | succ depth ih =>
      have orderly := orderly_expression depth
      apply carries_bind (carries_operand steps orderly ih)
      intro left
      apply carries_remaining
      · intro c c' rounds _ cursor _ bound
        have tail : cursor.ahead.tail.length ≤ cursor.ahead.length := by simp
        exact climb_enough orderly precedence left tail (Nat.le_trans tail bound)
      · exact fun rounds => carries_climb steps orderly ih precedence rounds left

end Pairing

end MonkeyLang.Grammar
