import MonkeyLang.Proofs.Grammar.Outcome

/-!
Reading goes one way: a rule gives no token back and forgets no mistake, and it refuses a malformed
statement only after it has recorded what is wrong with it. Unless no level is left, it closes the
blocks it opens.
-/

namespace MonkeyLang.Grammar

open Token (Kind)

/-- A place that reading can come to from another one. -/
structure Follows (before after : Cursor) : Prop where
  ahead : after.ahead <:+ before.ahead
  mistakes : before.mistakes <+: after.mistakes

namespace Follows

theorem refl (cursor : Cursor) : Follows cursor cursor :=
  ⟨List.suffix_refl _, List.prefix_refl _⟩

theorem trans {first second third : Cursor} (left : Follows first second)
    (right : Follows second third) : Follows first third :=
  ⟨right.ahead.trans left.ahead, left.mistakes.trans right.mistakes⟩

theorem advance (cursor : Cursor) : Follows cursor cursor.advance :=
  ⟨List.tail_suffix _, List.prefix_refl _⟩

theorem record (cursor : Cursor) (mistake : Mistake) : Follows cursor (cursor.record mistake) :=
  ⟨List.suffix_refl _, List.prefix_append _ _⟩

theorem drop (cursor : Cursor) : Follows cursor cursor.drop :=
  ⟨List.drop_suffix _ _, List.prefix_refl _⟩

theorem openBlock (cursor : Cursor) : Follows cursor cursor.openBlock :=
  ⟨List.suffix_refl _, List.prefix_refl _⟩

theorem closeBlock (cursor : Cursor) : Follows cursor cursor.closeBlock :=
  ⟨List.suffix_refl _, List.prefix_refl _⟩

theorem closeAllBlocks (cursor : Cursor) : Follows cursor cursor.closeAllBlocks :=
  ⟨List.suffix_refl _, List.prefix_refl _⟩

/-- Where nothing is wrong in the end, nothing was wrong before. -/
theorem clean {before after : Cursor} (follows : Follows before after)
    (clean : after.mistakes = []) : before.mistakes = [] := by
  have initial := follows.mistakes
  rw [clean] at initial
  exact List.prefix_nil.mp initial

theorem length_le {before after : Cursor} (follows : Follows before after) :
    after.ahead.length ≤ before.ahead.length :=
  follows.ahead.length_le

end Follows

structure Orderly {α : Type} (rule : Rule α) : Prop where
  follows : ∀ {cursor reached result}, outcome rule cursor = (result, reached) →
    Follows cursor reached
  blamed : ∀ {cursor reached}, outcome rule cursor = (.error .malformed, reached) →
    reached.mistakes ≠ []
  balanced : ∀ {cursor reached result}, outcome rule cursor = (result, reached) →
    result ≠ .error .tooDeep → reached.openBlocks = cursor.openBlocks

section

variable {α β : Type}

/-- A rule that always gives a value is orderly if it goes one way and opens no block. -/
theorem orderly_of_accepted {rule : Rule α} (value : Cursor → α) (change : Cursor → Cursor)
    (shape : ∀ cursor, outcome rule cursor = (.ok (value cursor), change cursor))
    (follows : ∀ cursor, Follows cursor (change cursor))
    (balanced : ∀ cursor, (change cursor).openBlocks = cursor.openBlocks) : Orderly rule where
  follows {cursor reached result} read := by
    rw [shape] at read
    cases read
    exact follows cursor
  blamed {cursor reached} refused := by
    rw [shape] at refused
    cases refused
  balanced {cursor reached result} read _ := by
    rw [shape] at read
    cases read
    exact balanced cursor

theorem orderly_pure (value : α) : Orderly (pure value : Rule α) :=
  orderly_of_accepted (fun _ => value) id (fun _ => rfl) Follows.refl fun _ => rfl

theorem orderly_current : Orderly current :=
  orderly_of_accepted Cursor.current id (fun _ => rfl) Follows.refl fun _ => rfl

theorem orderly_peek : Orderly peek :=
  orderly_of_accepted Cursor.peek id (fun _ => rfl) Follows.refl fun _ => rfl

theorem orderly_remaining : Orderly remaining :=
  orderly_of_accepted (·.ahead.length) id (fun _ => rfl) Follows.refl fun _ => rfl

theorem orderly_advance : Orderly advance :=
  orderly_of_accepted (fun _ => ()) Cursor.advance (fun _ => rfl) Follows.advance fun _ => rfl

theorem orderly_tooDeep : Orderly (throw .tooDeep : Rule α) where
  follows {cursor reached result} read := by
    cases read
    exact Follows.refl cursor
  blamed {cursor reached} refused := by cases refused
  balanced {cursor reached result} read allowed := by
    cases read
    rfl

theorem orderly_refuse (mistake : Mistake) : Orderly (refuse mistake : Rule α) where
  follows {cursor reached result} read := by
    rw [outcome_refuse] at read
    cases read
    exact Follows.record cursor mistake
  blamed {cursor reached} refused := by
    rw [outcome_refuse] at refused
    cases refused
    exact List.append_ne_nil_of_right_ne_nil _ (List.cons_ne_nil _ _)
  balanced {cursor reached result} read _ := by
    rw [outcome_refuse] at read
    cases read
    rfl

theorem orderly_bind {rule : Rule α} {next : α → Rule β} (first : Orderly rule)
    (rest : ∀ value, Orderly (next value)) : Orderly (rule >>= next) where
  follows {cursor last result} read := by
    rw [outcome_bind] at read
    rcases shape : outcome rule cursor with ⟨refusal | value, reached⟩
    · rw [shape] at read
      cases read
      exact first.follows shape
    · rw [shape] at read
      exact (first.follows shape).trans ((rest value).follows read)
  blamed {cursor last} refused := by
    rw [outcome_bind] at refused
    rcases shape : outcome rule cursor with ⟨refusal | value, reached⟩
    · rw [shape] at refused
      cases refused
      exact first.blamed shape
    · rw [shape] at refused
      exact (rest value).blamed refused
  balanced {cursor last result} read allowed := by
    rw [outcome_bind] at read
    rcases shape : outcome rule cursor with ⟨refusal | value, reached⟩
    · rw [shape] at read
      cases read
      apply first.balanced shape
      rintro ⟨⟩
      exact allowed rfl
    · rw [shape] at read
      have before : reached.openBlocks = cursor.openBlocks :=
        first.balanced shape fun wrong => by cases wrong
      rw [← before]
      exact (rest value).balanced read allowed

theorem orderly_ite {condition : Prop} [Decidable condition] {yes no : Rule α}
    (first : Orderly yes) (second : Orderly no) : Orderly (if condition then yes else no) := by
  split
  · exact first
  · exact second

theorem orderly_expect (kind : Kind) : Orderly (expect kind) :=
  orderly_bind orderly_peek fun _ => orderly_ite orderly_advance (orderly_refuse _)

theorem orderly_passSemicolon : Orderly passSemicolon :=
  orderly_bind orderly_peek fun _ => orderly_ite orderly_advance (orderly_pure _)

theorem orderly_identifier : Orderly identifier :=
  orderly_bind orderly_current fun _ => orderly_pure _

theorem orderly_number : Orderly number := by
  apply orderly_bind orderly_current
  intro token
  split
  · exact orderly_pure _
  · exact orderly_refuse _

theorem orderly_truth : Orderly truth :=
  orderly_bind orderly_current fun _ => orderly_pure _

theorem orderly_itemsAfter {item : Rule α} (orderly : Orderly item) (rounds : Nat) :
    Orderly (itemsAfter item rounds) := by
  induction rounds with
  | zero => exact orderly_pure _
  | succ rounds ih =>
      apply orderly_bind orderly_peek
      intro next
      refine orderly_ite ?_ (orderly_pure _)
      apply orderly_bind orderly_advance
      intro _
      apply orderly_bind orderly
      intro first
      exact orderly_bind ih fun rest => orderly_pure _

theorem orderly_listed {item : Rule α} (orderly : Orderly item) : Orderly (listed item) := by
  apply orderly_bind orderly_peek
  intro next
  apply orderly_ite
  · exact orderly_bind orderly_advance fun _ => orderly_pure _
  · apply orderly_bind orderly
    intro first
    apply orderly_bind orderly_remaining
    intro rounds
    apply orderly_bind (orderly_itemsAfter orderly rounds)
    intro rest
    exact orderly_bind (orderly_expect _) fun _ => orderly_pure _

theorem orderly_parameters : Orderly parameters :=
  orderly_listed (orderly_bind (orderly_expect _) fun _ => orderly_identifier)

end

theorem statementsFor_not_malformed (sub : Precedence → Rule Node) (stop : Kind) (rounds : Nat)
    {cursor reached : Cursor} :
    outcome (statementsFor sub stop rounds) cursor ≠ (.error .malformed, reached) := by
  intro refused
  induction rounds generalizing cursor with
  | zero => cases refused
  | succ rounds ih =>
      rw [statementsFor, outcome_current_bind] at refused
      split at refused
      · cases refused
      · rw [outcome_bind] at refused
        rcases shape : outcome (attempt sub) cursor with ⟨refusal | attempted, middle⟩
        · rw [shape] at refused
          cases refused
          rcases attempt_cases shape with
            ⟨_, wrong, _⟩ | ⟨_, wrong, _⟩ | ⟨_, wrong, _⟩ | ⟨wrong, _⟩ <;> cases wrong
        · rw [shape] at refused
          cases attempted with
          | none => exact ih refused
          | some node =>
              simp only [outcome_advance_bind] at refused
              rw [outcome_bind] at refused
              rcases rest : outcome (statementsFor sub stop rounds) middle.advance with
                ⟨refusal | others, last⟩
              · rw [rest] at refused
                cases refused
                exact ih rest
              · rw [rest] at refused
                cases refused

section

variable {sub : Precedence → Rule Node} (orderly : ∀ precedence, Orderly (sub precedence))
include orderly

theorem orderly_arguments : Orderly (arguments sub) :=
  orderly_listed (orderly_bind orderly_advance fun _ => orderly .lowest)

theorem orderly_letStatement : Orderly (letStatement sub) := by
  apply orderly_bind orderly_current
  intro token
  apply orderly_bind (orderly_expect _)
  intro _
  apply orderly_bind orderly_identifier
  intro target
  apply orderly_bind (orderly_expect _)
  intro _
  apply orderly_bind orderly_advance
  intro _
  apply orderly_bind (orderly _)
  intro value
  exact orderly_bind orderly_passSemicolon fun _ => orderly_pure _

theorem orderly_returnStatement : Orderly (returnStatement sub) := by
  apply orderly_bind orderly_current
  intro token
  apply orderly_bind orderly_advance
  intro _
  apply orderly_bind (orderly _)
  intro value
  exact orderly_bind orderly_passSemicolon fun _ => orderly_pure _

theorem orderly_expressionStatement : Orderly (expressionStatement sub) := by
  apply orderly_bind orderly_current
  intro token
  apply orderly_bind (orderly _)
  intro expression
  exact orderly_bind orderly_passSemicolon fun _ => orderly_pure _

theorem orderly_statement : Orderly (statement sub) := by
  apply orderly_bind orderly_current
  intro token
  split
  · exact orderly_letStatement orderly
  · exact orderly_returnStatement orderly
  · exact orderly_expressionStatement orderly

theorem orderly_attempt : Orderly (attempt sub) where
  follows {cursor reached result} read := by
    rcases attempt_cases read with
      ⟨node, _, inner⟩ | ⟨stopped, _, inner, rfl⟩ | ⟨stopped, _, _, inner, rfl⟩ | ⟨_, _, inner⟩
    · exact (orderly_statement orderly).follows inner
    · exact ((orderly_statement orderly).follows inner).trans (Follows.drop stopped)
    · have follows := (orderly_statement orderly).follows inner
      exact ((follows.trans (Follows.record _ _)).trans (Follows.closeAllBlocks _)).trans
        (Follows.drop _)
    · exact (orderly_statement orderly).follows inner
  blamed {cursor reached} refused := by
    rcases attempt_cases refused with
      ⟨_, wrong, _⟩ | ⟨_, wrong, _⟩ | ⟨_, wrong, _⟩ | ⟨wrong, _⟩ <;> cases wrong
  balanced {cursor reached result} read allowed := by
    rcases attempt_cases read with
      ⟨node, _, inner⟩ | ⟨stopped, _, inner, rfl⟩ | ⟨stopped, _, outermost, _, rfl⟩ | ⟨wrong, _⟩
    · exact (orderly_statement orderly).balanced inner fun wrong => by cases wrong
    · have same : stopped.openBlocks = cursor.openBlocks :=
        (orderly_statement orderly).balanced inner fun wrong => by cases wrong
      exact same
    · exact outermost.symm
    · exact absurd wrong allowed

/-- A statement is left out only for something that is wrong. -/
theorem attempt_none {cursor reached : Cursor}
    (skipped : outcome (attempt sub) cursor = (.ok none, reached)) : reached.mistakes ≠ [] := by
  rcases attempt_cases skipped with
    ⟨_, wrong, _⟩ | ⟨stopped, _, inner, rfl⟩ | ⟨stopped, _, _, inner, rfl⟩ | ⟨wrong, _⟩
  · cases wrong
  · have blamed : stopped.mistakes ≠ [] := (orderly_statement orderly).blamed inner
    exact blamed
  · exact List.append_ne_nil_of_right_ne_nil _ (List.cons_ne_nil _ _)
  · cases wrong

theorem orderly_statementsFor (stop : Kind) (rounds : Nat) :
    Orderly (statementsFor sub stop rounds) := by
  induction rounds with
  | zero => exact orderly_pure _
  | succ rounds ih =>
      apply orderly_bind orderly_current
      intro token
      refine orderly_ite (orderly_pure _) ?_
      apply orderly_bind (orderly_attempt orderly)
      intro first
      cases first with
      | none => exact ih
      | some first =>
          apply orderly_bind orderly_advance
          intro _
          exact orderly_bind ih fun rest => orderly_pure _

/-- Outside all blocks the statements are always read to an end. -/
theorem statementsFor_settled (stop : Kind) (rounds : Nat) {cursor : Cursor}
    (outermost : cursor.openBlocks = 0) :
    ∃ nodes reached, outcome (statementsFor sub stop rounds) cursor = (.ok nodes, reached) := by
  induction rounds generalizing cursor with
  | zero => exact ⟨[], cursor, rfl⟩
  | succ rounds ih =>
      rw [statementsFor, outcome_current_bind]
      by_cases stopped : cursor.current.kind = stop ∨ cursor.current.kind = .endOfInput
      · rw [if_pos stopped]
        exact ⟨[], cursor, rfl⟩
      · rw [if_neg stopped, outcome_bind]
        rcases shape : outcome (attempt sub) cursor with ⟨refusal | attempted, middle⟩
        · rcases attempt_cases shape with
            ⟨_, wrong, _⟩ | ⟨_, wrong, _⟩ | ⟨_, wrong, _⟩ | ⟨_, inside, _⟩
          · cases wrong
          · cases wrong
          · cases wrong
          · exact absurd outermost inside
        · have settled : middle.openBlocks = 0 := by
            rw [(orderly_attempt orderly).balanced shape fun wrong => by cases wrong]
            exact outermost
          cases attempted with
          | none => exact ih settled
          | some first =>
              have passed : middle.advance.openBlocks = 0 := settled
              obtain ⟨rest, reached, read⟩ := ih passed
              refine ⟨first :: rest, reached, ?_⟩
              simp only [outcome_advance_bind]
              rw [outcome_bind_ok read]
              rfl

theorem orderly_statements (stop : Kind) : Orderly (statements sub stop) :=
  orderly_bind orderly_remaining fun _ => orderly_statementsFor orderly stop _

theorem orderly_block : Orderly (block sub) where
  follows {cursor reached result} read := by
    have entered := (Follows.advance cursor).trans (Follows.openBlock _)
    rcases block_cases read with
      ⟨_, _, inner⟩ | ⟨nodes, last, inner, ⟨_, _, rfl⟩ | ⟨_, rfl⟩⟩
    · exact entered.trans ((orderly_statements orderly _).follows inner)
    · have follows := entered.trans ((orderly_statements orderly _).follows inner)
      exact follows.trans (Follows.closeBlock last)
    · have follows := entered.trans ((orderly_statements orderly _).follows inner)
      exact (follows.trans (Follows.closeBlock last)).trans (Follows.record _ _)
  blamed {cursor reached} refused := by
    rcases block_cases refused with
      ⟨_, same, inner⟩ | ⟨nodes, last, inner, ⟨_, wrong, _⟩ | ⟨_, rfl⟩⟩
    · cases same
      exact (orderly_statements orderly _).blamed inner
    · cases wrong
    · exact List.append_ne_nil_of_right_ne_nil _ (List.cons_ne_nil _ _)
  balanced {cursor reached result} read allowed := by
    rcases block_cases read with
      ⟨refusal, rfl, inner⟩ | ⟨nodes, last, inner, closing⟩
    · cases refusal with
      | malformed =>
          rw [statements, outcome_remaining_bind] at inner
          exact absurd inner (statementsFor_not_malformed sub _ _)
      | tooDeep => exact absurd rfl allowed
    · have opened : last.openBlocks = cursor.openBlocks + 1 :=
        (orderly_statements orderly _).balanced inner fun wrong => by cases wrong
      have closed : reached.openBlocks = last.openBlocks - 1 := by
        rcases closing with ⟨_, _, rfl⟩ | ⟨_, rfl⟩ <;> rfl
      omega

theorem orderly_unary : Orderly (unary sub) := by
  apply orderly_bind orderly_current
  intro token
  apply orderly_bind orderly_advance
  intro _
  exact orderly_bind (orderly _) fun operand => orderly_pure _

theorem orderly_grouped : Orderly (grouped sub) := by
  apply orderly_bind orderly_advance
  intro _
  apply orderly_bind (orderly _)
  intro inner
  exact orderly_bind (orderly_expect _) fun _ => orderly_pure _

theorem orderly_conditional : Orderly (conditional sub) := by
  apply orderly_bind orderly_current
  intro token
  apply orderly_bind (orderly_expect _)
  intro _
  apply orderly_bind orderly_advance
  intro _
  apply orderly_bind (orderly _)
  intro condition
  apply orderly_bind (orderly_expect _)
  intro _
  apply orderly_bind (orderly_expect _)
  intro _
  apply orderly_bind (orderly_block orderly)
  intro consequence
  apply orderly_bind orderly_peek
  intro next
  refine orderly_ite ?_ (orderly_pure _)
  apply orderly_bind orderly_advance
  intro _
  apply orderly_bind (orderly_expect _)
  intro _
  exact orderly_bind (orderly_block orderly) fun alternative => orderly_pure _

theorem orderly_function : Orderly (function sub) := by
  apply orderly_bind orderly_current
  intro token
  apply orderly_bind (orderly_expect _)
  intro _
  apply orderly_bind orderly_parameters
  intro names
  apply orderly_bind (orderly_expect _)
  intro _
  exact orderly_bind (orderly_block orderly) fun body => orderly_pure _

theorem orderly_operand : Orderly (operand sub) := by
  apply orderly_bind orderly_current
  intro token
  split
  · exact orderly_bind orderly_identifier fun _ => orderly_pure _
  · exact orderly_number
  · exact orderly_truth
  · exact orderly_truth
  · exact orderly_unary orderly
  · exact orderly_unary orderly
  · exact orderly_grouped orderly
  · exact orderly_conditional orderly
  · exact orderly_function orderly
  · exact orderly_refuse _

theorem orderly_extend (left : Node) : Orderly (extend sub left) := by
  apply orderly_bind orderly_current
  intro token
  apply orderly_ite
  · apply orderly_bind orderly_current
    intro opening
    exact orderly_bind (orderly_arguments orderly) fun given => orderly_pure _
  · apply orderly_bind orderly_current
    intro operator
    apply orderly_bind orderly_advance
    intro _
    exact orderly_bind (orderly _) fun right => orderly_pure _

theorem orderly_climb (precedence : Precedence) (rounds : Nat) (left : Node) :
    Orderly (climb sub precedence rounds left) := by
  induction rounds generalizing left with
  | zero => exact orderly_pure _
  | succ rounds ih =>
      apply orderly_bind orderly_peek
      intro next
      refine orderly_ite ?_ (orderly_pure _)
      apply orderly_bind orderly_advance
      intro _
      exact orderly_bind (orderly_extend orderly left) fun wider => ih wider

end

theorem orderly_expression (depth : Nat) (precedence : Precedence) :
    Orderly (expression depth precedence) := by
  induction depth generalizing precedence with
  | zero => exact orderly_tooDeep
  | succ depth ih =>
      apply orderly_bind (orderly_operand ih)
      intro left
      exact orderly_bind orderly_remaining fun rounds => orderly_climb ih precedence rounds left

end MonkeyLang.Grammar
