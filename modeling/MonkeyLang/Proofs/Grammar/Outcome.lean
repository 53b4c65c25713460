import MonkeyLang.Grammar

/-!
What a rule comes to from a cursor, for each way in which rules are built.
-/

namespace MonkeyLang.Grammar

open Token (Kind)

variable {α β : Type}

def outcome (rule : Rule α) (cursor : Cursor) : Except Refusal α × Cursor := rule.run.run cursor

@[simp] theorem outcome_pure (value : α) (cursor : Cursor) :
    outcome (pure value) cursor = (.ok value, cursor) :=
  rfl

@[simp] theorem outcome_throw (refusal : Refusal) (cursor : Cursor) :
    outcome (throw refusal : Rule α) cursor = (.error refusal, cursor) :=
  rfl

theorem outcome_bind (rule : Rule α) (next : α → Rule β) (cursor : Cursor) :
    outcome (rule >>= next) cursor =
      match outcome rule cursor with
      | (.ok value, reached) => outcome (next value) reached
      | (.error refusal, reached) => (.error refusal, reached) := by
  simp only [outcome]
  rw [ExceptT.run_bind, StateT.run_bind]
  generalize StateT.run (ExceptT.run rule) cursor = first
  rcases first with ⟨⟨refusal⟩ | ⟨value⟩, reached⟩ <;> rfl

theorem outcome_bind_ok {rule : Rule α} {next : α → Rule β} {cursor reached : Cursor} {value : α}
    (first : outcome rule cursor = (.ok value, reached)) :
    outcome (rule >>= next) cursor = outcome (next value) reached := by
  rw [outcome_bind, first]

/-- A sequence is accepted if both parts are. -/
theorem accepted_bind {rule : Rule α} {next : α → Rule β} {cursor last : Cursor} {result : β}
    (accepted : outcome (rule >>= next) cursor = (.ok result, last)) :
    ∃ value reached, outcome rule cursor = (.ok value, reached) ∧
      outcome (next value) reached = (.ok result, last) := by
  rw [outcome_bind] at accepted
  rcases shape : outcome rule cursor with ⟨⟨refusal⟩ | ⟨value⟩, reached⟩
  · rw [shape] at accepted
    cases accepted
  · rw [shape] at accepted
    exact ⟨value, reached, rfl, accepted⟩

@[simp] theorem outcome_current_bind (next : Token → Rule β) (cursor : Cursor) :
    outcome (current >>= next) cursor = outcome (next cursor.current) cursor :=
  rfl

@[simp] theorem outcome_peek_bind (next : Token → Rule β) (cursor : Cursor) :
    outcome (peek >>= next) cursor = outcome (next cursor.peek) cursor :=
  rfl

@[simp] theorem outcome_advance_bind (next : Unit → Rule β) (cursor : Cursor) :
    outcome (advance >>= next) cursor = outcome (next ()) cursor.advance :=
  rfl

@[simp] theorem outcome_advance (cursor : Cursor) :
    outcome advance cursor = (.ok (), cursor.advance) :=
  rfl

@[simp] theorem outcome_remaining_bind (next : Nat → Rule β) (cursor : Cursor) :
    outcome (remaining >>= next) cursor = outcome (next cursor.ahead.length) cursor :=
  rfl

@[simp] theorem outcome_modify_bind (change : Cursor → Cursor) (next : Unit → Rule β)
    (cursor : Cursor) :
    outcome ((modify change : Rule Unit) >>= next) cursor = outcome (next ()) (change cursor) :=
  rfl

@[simp] theorem outcome_get_bind (next : Cursor → Rule β) (cursor : Cursor) :
    outcome ((get : Rule Cursor) >>= next) cursor = outcome (next cursor) cursor :=
  rfl

@[simp] theorem outcome_refuse (mistake : Mistake) (cursor : Cursor) :
    outcome (refuse mistake : Rule α) cursor = (.error .malformed, cursor.record mistake) :=
  rfl

theorem readTokens_of_program {depth : Nat} {tokens : List Token} {node : Node} {reached : Cursor}
    (read : outcome (program (expression depth)) (Cursor.start tokens) = (.ok node, reached)) :
    readTokens depth tokens = ⟨node, reached.mistakes⟩ := by
  rw [readTokens, show (program (expression depth)).run.run (Cursor.start tokens) = _ from read]

theorem outcome_expect (kind : Kind) (cursor : Cursor) :
    outcome (expect kind) cursor =
      if cursor.peek.kind = kind then (.ok (), cursor.advance)
      else (.error .malformed, cursor.record (.expected kind cursor.peek.kind)) := by
  rw [expect, outcome_peek_bind]
  split <;> rfl

theorem outcome_passSemicolon (cursor : Cursor) :
    outcome passSemicolon cursor =
      (.ok (), if cursor.peek.kind = .semicolon then cursor.advance else cursor) := by
  rw [passSemicolon, outcome_peek_bind]
  split <;> rfl

theorem accepted_expect {kind : Kind} {cursor reached : Cursor}
    (accepted : outcome (expect kind) cursor = (.ok (), reached)) :
    cursor.peek.kind = kind ∧ reached = cursor.advance := by
  rw [outcome_expect] at accepted
  split at accepted
  · cases accepted
    exact ⟨‹_›, rfl⟩
  · cases accepted

theorem outcome_map (change : α → β) (rule : Rule α) (cursor : Cursor) :
    outcome (change <$> rule) cursor =
      match outcome rule cursor with
      | (.ok value, reached) => (.ok (change value), reached)
      | (.error refusal, reached) => (.error refusal, reached) := by
  simp only [outcome]
  rw [ExceptT.run_map, StateT.run_map]
  generalize StateT.run (ExceptT.run rule) cursor = first
  rcases first with ⟨⟨refusal⟩ | ⟨value⟩, reached⟩ <;> rfl

theorem outcome_tryCatch (rule : Rule α) (handler : Refusal → Rule α) (cursor : Cursor) :
    outcome (tryCatch rule handler) cursor =
      match outcome rule cursor with
      | (.ok value, reached) => (.ok value, reached)
      | (.error refusal, reached) => outcome (handler refusal) reached := by
  simp only [outcome]
  rw [ExceptT.run_tryCatch, StateT.run_bind]
  generalize StateT.run (ExceptT.run rule) cursor = first
  rcases first with ⟨⟨refusal⟩ | ⟨value⟩, reached⟩ <;> rfl

theorem outcome_attempt (sub : Precedence → Rule Node) (cursor : Cursor) :
    outcome (attempt sub) cursor =
      match outcome (statement sub) cursor with
      | (.ok node, reached) => (.ok (some node), reached)
      | (.error .malformed, reached) => (.ok none, reached.drop)
      | (.error .tooDeep, reached) =>
        if cursor.openBlocks = 0 then (.ok none, ((reached.record .tooDeep).closeAllBlocks).drop)
        else (.error .tooDeep, reached) := by
  rw [attempt, outcome_get_bind, outcome_tryCatch, outcome_map]
  rcases outcome (statement sub) cursor with ⟨(_ | _) | node, reached⟩
  · rfl
  · by_cases outermost : cursor.openBlocks = 0
    · simp only [outermost, if_true]
      rfl
    · simp only [outermost, if_false]
      rfl
  · rfl

section

variable {sub : Precedence → Rule Node} {cursor reached : Cursor}

/-- An attempt keeps a statement, leaves a malformed one out, or runs out of levels. That is settled
here where no block is open. -/
theorem attempt_cases {result : Except Refusal (Option Node)}
    (read : outcome (attempt sub) cursor = (result, reached)) :
    (∃ node, result = .ok (some node) ∧ outcome (statement sub) cursor = (.ok node, reached)) ∨
      (∃ stopped, result = .ok none ∧
        outcome (statement sub) cursor = (.error .malformed, stopped) ∧ reached = stopped.drop) ∨
      (∃ stopped, result = .ok none ∧ cursor.openBlocks = 0 ∧
        outcome (statement sub) cursor = (.error .tooDeep, stopped) ∧
        reached = ((stopped.record .tooDeep).closeAllBlocks).drop) ∨
      (result = .error .tooDeep ∧ cursor.openBlocks ≠ 0 ∧
        outcome (statement sub) cursor = (.error .tooDeep, reached)) := by
  rw [outcome_attempt] at read
  rcases shape : outcome (statement sub) cursor with ⟨(_ | _) | node, stopped⟩
  · rw [shape] at read
    cases read
    exact .inr (.inl ⟨stopped, rfl, rfl, rfl⟩)
  · rw [shape] at read
    by_cases outermost : cursor.openBlocks = 0
    · simp only [outermost, if_true] at read
      cases read
      exact .inr (.inr (.inl ⟨stopped, rfl, outermost, rfl, rfl⟩))
    · simp only [outermost, if_false] at read
      cases read
      exact .inr (.inr (.inr ⟨rfl, outermost, rfl⟩))
  · rw [shape] at read
    cases read
    exact .inl ⟨node, rfl, rfl⟩

theorem accepted_attempt {node : Node}
    (accepted : outcome (attempt sub) cursor = (.ok (some node), reached)) :
    outcome (statement sub) cursor = (.ok node, reached) := by
  rcases attempt_cases accepted with
    ⟨_, same, inner⟩ | ⟨_, wrong, _⟩ | ⟨_, wrong, _⟩ | ⟨wrong, _⟩
  · cases same
    exact inner
  · cases wrong
  · cases wrong
  · cases wrong

theorem outcome_block (sub : Precedence → Rule Node) (cursor : Cursor) :
    outcome (block sub) cursor =
      match outcome (statements sub .closeBrace) cursor.advance.openBlock with
      | (.ok inner, last) =>
        if last.current.kind = .closeBrace then
          (.ok (.block cursor.current inner), last.closeBlock)
        else (.error .malformed, last.closeBlock.record (.unclosedBlock last.current.kind))
      | (.error refusal, last) => (.error refusal, last) := by
  rw [block, outcome_current_bind, outcome_advance_bind, outcome_modify_bind, outcome_bind]
  rcases outcome (statements sub .closeBrace) cursor.advance.openBlock with ⟨refusal | inner, last⟩
  · rfl
  · simp only [outcome_modify_bind, outcome_current_bind]
    have same : last.closeBlock.current = last.current := rfl
    rw [same]
    by_cases closes : last.current.kind = .closeBrace
    · rw [if_pos closes, if_pos closes]
      rfl
    · rw [if_neg closes, if_neg closes]
      rfl

/-- A block is the statements between its braces. -/
theorem block_cases {result : Except Refusal Node}
    (read : outcome (block sub) cursor = (result, reached)) :
    (∃ refusal, result = .error refusal ∧
        outcome (statements sub .closeBrace) cursor.advance.openBlock = (.error refusal, reached)) ∨
      ∃ inner last,
        outcome (statements sub .closeBrace) cursor.advance.openBlock = (.ok inner, last) ∧
        ((last.current.kind = .closeBrace ∧ result = .ok (.block cursor.current inner) ∧
            reached = last.closeBlock) ∨
          (result = .error .malformed ∧
            reached = last.closeBlock.record (.unclosedBlock last.current.kind))) := by
  rw [outcome_block] at read
  rcases shape : outcome (statements sub .closeBrace) cursor.advance.openBlock with
    ⟨refusal | inner, last⟩
  · rw [shape] at read
    cases read
    exact .inl ⟨refusal, rfl, rfl⟩
  · rw [shape] at read
    refine .inr ⟨inner, last, rfl, ?_⟩
    by_cases closes : last.current.kind = .closeBrace
    · simp only [closes, if_true] at read
      cases read
      exact .inl ⟨closes, rfl, rfl⟩
    · simp only [closes, if_false] at read
      cases read
      exact .inr ⟨rfl, rfl⟩

end

/-- What `conditional` does after its first block. -/
def elseBranch (sub : Precedence → Rule Node) (keyword : Token) (condition consequence : Node) :
    Rule Node := do
  let next ← peek
  if next.kind = .elseWord then
    advance
    expect .openBrace
    let alternative ← block sub
    pure (.conditional keyword condition consequence alternative)
  else pure (.conditional keyword condition consequence .missing)

end MonkeyLang.Grammar
