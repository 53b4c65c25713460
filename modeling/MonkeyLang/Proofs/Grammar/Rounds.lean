import MonkeyLang.Proofs.Grammar.Progress

/-!
Repetitions come to an end by themselves. A round of one takes a token, so that rounds beyond the
number of tokens ahead change nothing.
-/

namespace MonkeyLang.Grammar

open Token (Kind)

theorem leftover_pos {enclosed : Bool} {token : Token} (rest : List Token)
    (more : token.kind ≠ .endOfInput) (inside : token.kind = .closeBrace → enclosed = false) :
    0 < leftover enclosed 0 (token :: rest) := by
  unfold leftover
  split
  · exact absurd ‹_› more
  · exact Nat.succ_pos _
  · simp [inside ‹_›]
  · simp
  · exact Nat.succ_pos _

theorem length_drop_le (cursor : Cursor) : cursor.drop.ahead.length ≤ cursor.ahead.length :=
  (Follows.drop cursor).length_le

/-- A cursor that is given up where its statement began leaves that token behind, unless it is the
brace that closes the block around it. -/
theorem length_drop_lt {start stopped : Cursor} (follows : Follows start stopped)
    (more : start.current.kind ≠ .endOfInput)
    (inside : start.current.kind = .closeBrace → stopped.openBlocks = 0) :
    stopped.drop.ahead.length < start.ahead.length := by
  rcases Nat.lt_or_eq_of_le follows.length_le with shorter | same
  · exact Nat.lt_of_le_of_lt (length_drop_le stopped) shorter
  · have unmoved : stopped.ahead = start.ahead := follows.ahead.eq_of_length same
    cases shape : start.ahead with
    | nil =>
        rw [Cursor.current, shape] at more
        exact absurd rfl more
    | cons token rest =>
        rw [Cursor.current, shape] at more inside
        have passed : 0 < leftover (0 < stopped.openBlocks) 0 (token :: rest) := by
          apply leftover_pos rest more
          intro closes
          simp [inside closes]
        have taken : stopped.drop.ahead =
            (token :: rest).drop (leftover (0 < stopped.openBlocks) 0 (token :: rest)) := by
          rw [← shape, ← unmoved]
          rfl
        rw [taken, List.length_drop, List.length_cons]
        omega

section

variable {α : Type} {item : Rule α}

theorem itemsAfter_stops (item : Rule α) (rounds : Nat) {cursor : Cursor}
    (ends : cursor.peek.kind ≠ .comma) :
    outcome (itemsAfter item rounds) cursor = (.ok [], cursor) := by
  cases rounds with
  | zero => rfl
  | succ rounds =>
      rw [itemsAfter, outcome_peek_bind, if_neg ends]
      rfl

theorem itemsAfter_enough (orderly : Orderly item) {first second : Nat} {cursor : Cursor}
    (enough : cursor.ahead.tail.length ≤ first) (enough' : cursor.ahead.tail.length ≤ second) :
    outcome (itemsAfter item first) cursor = outcome (itemsAfter item second) cursor := by
  induction first generalizing second cursor with
  | zero =>
      have last := List.length_eq_zero_iff.mp (Nat.le_zero.mp enough)
      have ends : cursor.peek.kind ≠ .comma := by simp [Cursor.peek, last, Token.sentinel]
      rw [itemsAfter_stops item _ ends, itemsAfter_stops item _ ends]
  | succ first ih =>
      by_cases continues : cursor.peek.kind = .comma
      · cases second with
        | zero =>
            have last := List.length_eq_zero_iff.mp (Nat.le_zero.mp enough')
            simp [Cursor.peek, last, Token.sentinel] at continues
        | succ second =>
            simp only [itemsAfter, outcome_peek_bind, if_pos continues, outcome_advance_bind]
            rw [outcome_bind, outcome_bind]
            rcases shape : outcome item cursor.advance with ⟨refusal | found, middle⟩
            · rfl
            · have shorter : middle.ahead.length ≤ cursor.ahead.tail.length :=
                (orderly.follows shape).length_le
              have tail : middle.ahead.tail.length = middle.ahead.length - 1 := List.length_tail
              have same : outcome (itemsAfter item first) middle =
                  outcome (itemsAfter item second) middle := ih (by omega) (by omega)
              simp only [outcome_bind, same]
      · rw [itemsAfter_stops item _ continues, itemsAfter_stops item _ continues]

end

section

variable {sub : Precedence → Rule Node}

theorem statementsFor_stops (sub : Precedence → Rule Node) {stop : Kind} (rounds : Nat)
    {cursor : Cursor} (ends : cursor.current.kind = stop ∨ cursor.current.kind = .endOfInput) :
    outcome (statementsFor sub stop rounds) cursor = (.ok [], cursor) := by
  cases rounds with
  | zero => rfl
  | succ rounds =>
      rw [statementsFor, outcome_current_bind, if_pos ends]
      rfl

/-- A round of statements attempts one and goes on behind it. -/
theorem statementsFor_continues (sub : Precedence → Rule Node) {stop : Kind} (rounds : Nat)
    {cursor : Cursor} (more : ¬(cursor.current.kind = stop ∨ cursor.current.kind = .endOfInput)) :
    outcome (statementsFor sub stop (rounds + 1)) cursor =
      match outcome (attempt sub) cursor with
      | (.ok none, reached) => outcome (statementsFor sub stop rounds) reached
      | (.ok (some first), reached) =>
        outcome (List.cons first <$> statementsFor sub stop rounds) reached.advance
      | (.error refusal, reached) => (.error refusal, reached) := by
  rw [statementsFor, outcome_current_bind, if_neg more, outcome_bind]
  rcases outcome (attempt sub) cursor with ⟨refusal | _ | first, reached⟩
  · rfl
  · rfl
  · simp only [outcome_advance_bind, map_eq_pure_bind]

variable (orderly : ∀ precedence, Orderly (sub precedence))
include orderly

/-- A statement that is left out has tokens, unless it begins with the end of the block around it. -/
theorem attempt_none_shortens {cursor reached : Cursor}
    (skipped : outcome (attempt sub) cursor = (.ok none, reached))
    (more : cursor.current.kind ≠ .endOfInput)
    (inside : cursor.current.kind = .closeBrace → cursor.openBlocks = 0) :
    reached.ahead.length < cursor.ahead.length := by
  rcases attempt_cases skipped with
    ⟨_, wrong, _⟩ | ⟨stopped, _, inner, rfl⟩ | ⟨stopped, _, _, inner, rfl⟩ | ⟨wrong, _⟩
  · cases wrong
  · have follows := (orderly_statement orderly).follows inner
    have balanced := (orderly_statement orderly).balanced inner fun wrong => by cases wrong
    exact length_drop_lt follows more fun closes => balanced.trans (inside closes)
  · have follows := (orderly_statement orderly).follows inner
    have closed := (follows.trans (Follows.record _ .tooDeep)).trans (Follows.closeAllBlocks _)
    exact length_drop_lt closed more fun _ => rfl
  · cases wrong

theorem statementsFor_enough {stop : Kind} {first second : Nat} {cursor : Cursor}
    (inside : stop = .closeBrace ∨ cursor.openBlocks = 0) (enough : cursor.ahead.length ≤ first)
    (enough' : cursor.ahead.length ≤ second) :
    outcome (statementsFor sub stop first) cursor =
      outcome (statementsFor sub stop second) cursor := by
  induction first generalizing second cursor with
  | zero =>
      have last := List.length_eq_zero_iff.mp (Nat.le_zero.mp enough)
      have ends : cursor.current.kind = stop ∨ cursor.current.kind = .endOfInput :=
        .inr (by simp [Cursor.current, last, Token.sentinel])
      rw [statementsFor_stops sub _ ends, statementsFor_stops sub _ ends]
  | succ first ih =>
      by_cases ends : cursor.current.kind = stop ∨ cursor.current.kind = .endOfInput
      · rw [statementsFor_stops sub _ ends, statementsFor_stops sub _ ends]
      cases second with
      | zero =>
          have last := List.length_eq_zero_iff.mp (Nat.le_zero.mp enough')
          simp [Cursor.current, last, Token.sentinel] at ends
      | succ second =>
          rw [statementsFor_continues sub first ends, statementsFor_continues sub second ends]
          obtain ⟨before, more⟩ := not_or.mp ends
          rcases shape : outcome (attempt sub) cursor with ⟨refusal | attempted, middle⟩
          · rfl
          have balanced : middle.openBlocks = cursor.openBlocks :=
            (orderly_attempt orderly).balanced shape fun wrong => by cases wrong
          have inside' : stop = .closeBrace ∨ middle.openBlocks = 0 := by rwa [balanced]
          cases attempted with
          | none =>
              have outside : cursor.current.kind = .closeBrace → cursor.openBlocks = 0 := by
                intro closes
                rcases inside with same | outermost
                · exact absurd (closes.trans same.symm) before
                · exact outermost
              have shorter := attempt_none_shortens orderly shape more outside
              exact ih inside' (by omega) (by omega)
          | some node =>
              have shorter : middle.ahead.length ≤ cursor.ahead.length :=
                ((orderly_attempt orderly).follows shape).length_le
              have passed : middle.advance.ahead.length = middle.ahead.length - 1 :=
                List.length_tail
              have same : outcome (statementsFor sub stop first) middle.advance =
                  outcome (statementsFor sub stop second) middle.advance :=
                ih inside' (by omega) (by omega)
              simp only [outcome_map, same]

end

end MonkeyLang.Grammar
