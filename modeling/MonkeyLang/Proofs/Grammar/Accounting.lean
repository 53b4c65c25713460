import MonkeyLang.Proofs.Grammar.Acceptance
import MonkeyLang.Proofs.Grammar.Depth

/-!
An account of what is left out. Reading records one mistake for each statement that it leaves out, in
blocks too, and no other (`one_mistake_for_each_loss`).
-/

namespace MonkeyLang.Grammar

/-- Between two cursors one mistake was recorded for each statement that was left out, and then
those in `own`. -/
def Accounts (before : Cursor) (own : List Mistake) (after : Cursor) : Prop :=
  ∃ nested, after.mistakes = before.mistakes ++ nested ++ own ∧
    after.dropped = before.dropped + nested.length

/-- What a rule comes to from a cursor. It has one mistake of its own if it refuses a malformed
statement, and else none. -/
def Accounted {α : Type} (before : Cursor) : Except Refusal α × Cursor → Prop
  | (.error .malformed, after) => ∃ own, Accounts before [own] after
  | (_, after) => Accounts before [] after

namespace Accounts

variable {before between after : Cursor} {own : List Mistake} {mistake : Mistake}

theorem still (mistakes : after.mistakes = before.mistakes) (dropped : after.dropped = before.dropped) :
    Accounts before [] after :=
  ⟨[], by rw [mistakes, List.append_nil, List.append_nil], dropped⟩

theorem record (accounts : Accounts before [] after) (mistake : Mistake) :
    Accounts before [mistake] (after.record mistake) := by
  obtain ⟨nested, mistakes, dropped⟩ := accounts
  refine ⟨nested, ?_, dropped⟩
  rw [Cursor.record, mistakes, List.append_nil]

theorem trans (first : Accounts before [] between) (second : Accounts between own after) :
    Accounts before own after := by
  obtain ⟨nested, mistakes, dropped⟩ := first
  obtain ⟨nested', mistakes', dropped'⟩ := second
  refine ⟨nested ++ nested', ?_, ?_⟩
  · rw [mistakes', mistakes]
    simp only [List.append_nil, List.append_assoc]
  · rw [dropped', dropped, List.length_append, Nat.add_assoc]

/-- A statement that is left out takes the mistake of its own with it. -/
theorem drop (accounts : Accounts before [mistake] after) : Accounts before [] after.drop := by
  obtain ⟨nested, mistakes, dropped⟩ := accounts
  refine ⟨nested ++ [mistake], ?_, ?_⟩
  · rw [List.append_nil, ← List.append_assoc]
    exact mistakes
  · change after.dropped + 1 = _
    rw [dropped, List.length_append, Nat.add_assoc]
    rfl

/-- What comes of a rule that goes on from there. -/
theorem onward {α : Type} {result : Except Refusal α × Cursor} (accounts : Accounts before [] between)
    (rest : Accounted between result) : Accounted before result := by
  rcases result with ⟨(_ | _) | value, after⟩
  · obtain ⟨own, accounts'⟩ := rest
    exact ⟨own, accounts.trans accounts'⟩
  · exact accounts.trans rest
  · exact accounts.trans rest

end Accounts

theorem accounted_bind {α β : Type} {rule : Rule α} {next : α → Rule β}
    (first : ∀ cursor, Accounted cursor (outcome rule cursor))
    (second : ∀ value cursor, Accounted cursor (outcome (next value) cursor)) (cursor : Cursor) :
    Accounted cursor (outcome (rule >>= next) cursor) := by
  have half := first cursor
  rw [outcome_bind]
  generalize outcome rule cursor = read at half ⊢
  rcases read with ⟨(_ | _) | value, reached⟩
  · exact half
  · exact half
  · exact half.onward (second value reached)

/-- One attempt at a statement. A statement that is left out has one mistake of its own, after those
of the statements left out in its blocks, and a statement that is kept has none. -/
def Attempted (before : Cursor) : Except Refusal (Option Node) × Cursor → Prop
  | (.ok none, after) => ∃ own stopped, Accounts before [own] stopped ∧ after = stopped.drop
  | (_, after) => Accounts before [] after

theorem attempted_attempt {sub : Precedence → Rule Node} {cursor : Cursor}
    (inner : Accounted cursor (outcome (statement sub) cursor)) :
    Attempted cursor (outcome (attempt sub) cursor) := by
  rw [outcome_attempt]
  generalize outcome (statement sub) cursor = read at inner ⊢
  rcases read with ⟨(_ | _) | node, stopped⟩
  · obtain ⟨own, accounts⟩ := inner
    exact ⟨own, stopped, accounts, rfl⟩
  · by_cases outermost : cursor.openBlocks = 0
    · simp only [outermost, if_true]
      exact ⟨.tooDeep, (stopped.record .tooDeep).closeAllBlocks, inner.record .tooDeep, rfl⟩
    · simp only [outermost, if_false]
      exact inner
  · exact inner

theorem accounted_attempt {sub : Precedence → Rule Node}
    (inner : ∀ cursor, Accounted cursor (outcome (statement sub) cursor)) (cursor : Cursor) :
    Accounted cursor (outcome (attempt sub) cursor) := by
  have attempted := attempted_attempt (inner cursor)
  rcases read : outcome (attempt sub) cursor with ⟨refusal | _ | node, after⟩
  · rcases attempt_cases read with ⟨_, wrong, _⟩ | ⟨_, wrong, _⟩ | ⟨_, wrong, _⟩ | ⟨same, _⟩
    · cases wrong
    · cases wrong
    · cases wrong
    · cases same
      rw [read] at attempted
      exact attempted
  · rw [read] at attempted
    obtain ⟨own, stopped, accounts, rfl⟩ := attempted
    exact accounts.drop
  · rw [read] at attempted
    exact attempted

theorem accounted_congruence :
    Congruence fun _ rule _ => ∀ cursor, Accounted cursor (outcome rule cursor) where
  pure _ _ := .still rfl rfl
  bind := accounted_bind
  look _ _ := .still rfl rfl
  advance _ := .still rfl rfl
  openBlock _ := .still rfl rfl
  closeBlock _ := .still rfl rfl
  refuse mistake _ _ := ⟨mistake, Accounts.record (.still rfl rfl) mistake⟩
  attempt := accounted_attempt

theorem accounted_expression (depth : Nat) (precedence : Precedence) (cursor : Cursor) :
    Accounted cursor (outcome (expression depth precedence) cursor) := by
  induction depth generalizing precedence cursor with
  | zero => exact .still rfl rfl
  | succ depth ih =>
      refine accounted_bind (@operand_related _ accounted_congruence _ (expression depth) ih) ?_ cursor
      intro left
      apply accounted_bind (remaining_related accounted_congruence)
      intro rounds
      exact @climb_related _ accounted_congruence _ (expression depth) ih precedence rounds left

theorem accounted_statement (depth : Nat) (cursor : Cursor) :
    Accounted cursor (outcome (statement (expression depth)) cursor) :=
  @statement_related _ accounted_congruence _ (expression depth) (accounted_expression depth) cursor

/-- Where reading all tokens ends. -/
def ending (depth : Nat) (tokens : List Token) : Cursor :=
  (outcome (program (expression depth)) (Cursor.start tokens)).2

theorem accounts_ending (depth : Nat) (tokens : List Token) :
    (readTokens depth tokens).mistakes = (ending depth tokens).mistakes ∧
      (ending depth tokens).mistakes.length = (ending depth tokens).dropped := by
  have accounted := @program_related _ accounted_congruence _ (expression depth)
    (accounted_expression depth) (Cursor.start tokens)
  obtain ⟨node, last, read⟩ := program_settled (orderly_expression depth) tokens
  rw [read] at accounted
  obtain ⟨nested, mistakes, dropped⟩ := accounted
  rw [readTokens_of_program read, ending, read]
  refine ⟨rfl, ?_⟩
  rw [mistakes, dropped]
  simp [Cursor.start]

/-- Each statement that is left out has exactly one mistake of its own, after those of the statements
left out in its blocks, and one that is kept has none, from any cursor. So there are as many mistakes
as statements left out, at every depth. A source is accepted just where none is left out, and then its
program is derived from all of its tokens. -/
theorem one_mistake_for_each_loss (depth : Nat) :
    (∀ cursor, Attempted cursor (outcome (attempt (expression depth)) cursor)) ∧
      (∀ tokens,
        (readTokens depth tokens).mistakes.length = (ending depth tokens).dropped ∧
          ((readTokens depth tokens).mistakes = [] ↔ (ending depth tokens).dropped = 0)) ∧
      ∀ source : String,
        match readProgram source with
        | .ok tree =>
          (ending depthLimit (Token.scan source.toList)).dropped = 0 ∧
            ∃ nodes, tree = .program nodes ∧
              Derives (Token.scan source.toList) (.statements nodes)
        | .error _ => 0 < (ending depthLimit (Token.scan source.toList)).dropped := by
  refine ⟨fun cursor => attempted_attempt (accounted_statement depth cursor), ?_, ?_⟩
  · intro tokens
    obtain ⟨same, counted⟩ := accounts_ending depth tokens
    rw [same, counted, ← List.length_eq_zero_iff, counted]
    exact ⟨rfl, Iff.rfl⟩
  · intro source
    obtain ⟨same, counted⟩ := accounts_ending depthLimit (Token.scan source.toList)
    rw [← counted, ← same]
    split
    · rename_i tree accepted
      obtain ⟨clean, rfl⟩ := readProgram_eq_ok.mp accepted
      exact ⟨List.length_eq_zero_iff.mpr clean, derives_of_clean clean⟩
    · rename_i fault rejected
      apply List.length_pos_iff.mpr
      intro clean
      rw [readProgram_eq_ok.mpr ⟨clean, rfl⟩] at rejected
      cases rejected

end MonkeyLang.Grammar
