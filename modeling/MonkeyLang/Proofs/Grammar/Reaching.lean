import MonkeyLang.Proofs.Grammar.Level
import MonkeyLang.Proofs.Grammar.Progress

/-!
Reading without a mistake: what a rule gives and where it stops, unless no level is left for an
expression inside.
-/

namespace MonkeyLang.Grammar

open Token (Kind)

/-- From one place to another nothing was found wrong. -/
structure Quiet (before after : Cursor) : Prop where
  mistakes : after.mistakes = before.mistakes
  openBlocks : after.openBlocks = before.openBlocks

namespace Quiet

theorem refl (cursor : Cursor) : Quiet cursor cursor := ⟨rfl, rfl⟩

theorem trans {first second third : Cursor} (left : Quiet first second)
    (right : Quiet second third) : Quiet first third :=
  ⟨right.mistakes.trans left.mistakes, right.openBlocks.trans left.openBlocks⟩

theorem advance (cursor : Cursor) : Quiet cursor cursor.advance := ⟨rfl, rfl⟩

end Quiet

section

variable {cursor : Cursor} {token : Token} {rest : List Token}

theorem advance_ahead (ahead : cursor.ahead = token :: rest) : cursor.advance.ahead = rest := by
  rw [show cursor.advance.ahead = cursor.ahead.tail from rfl, ahead]
  rfl

theorem current_eq (ahead : cursor.ahead = token :: rest) : cursor.current = token := by
  rw [Cursor.current, ahead]
  rfl

end

section

variable {α β : Type}

def Exhausted (rule : Rule α) (cursor : Cursor) : Prop :=
  ∃ reached, outcome rule cursor = (.error .tooDeep, reached)

/-- A rule gives a value and stops on the last token before `rest`, unless no level is left. -/
def Reaches (rule : Rule α) (cursor : Cursor) (value : α) (rest : List Token) : Prop :=
  (∃ reached, outcome rule cursor = (.ok value, reached) ∧ Quiet cursor reached ∧
    reached.ahead.tail = rest) ∨ Exhausted rule cursor

theorem Exhausted.bind {rule : Rule α} {cursor : Cursor} (exhausted : Exhausted rule cursor)
    (next : α → Rule β) : Exhausted (rule >>= next) cursor := by
  obtain ⟨reached, shape⟩ := exhausted
  refine ⟨reached, ?_⟩
  rw [outcome_bind, shape]

theorem Reaches.bind {rule : Rule α} {next : α → Rule β} {cursor : Cursor} {value : α}
    {result : β} {middle rest : List Token} (first : Reaches rule cursor value middle)
    (second : ∀ reached, Quiet cursor reached → reached.ahead.tail = middle →
      Reaches (next value) reached result rest) :
    Reaches (rule >>= next) cursor result rest := by
  rcases first with ⟨reached, shape, quiet, tail⟩ | exhausted
  · rcases second reached quiet tail with ⟨last, read, later, ends⟩ | ⟨last, read⟩
    · refine .inl ⟨last, ?_, quiet.trans later, ends⟩
      rw [outcome_bind_ok shape, read]
    · refine .inr ⟨last, ?_⟩
      rw [outcome_bind_ok shape, read]
  · exact .inr (exhausted.bind next)

/-- Two rules that come to the same from one place to another. -/
theorem Reaches.of_eq {rule rule' : Rule α} {cursor middle : Cursor} {value : α}
    {rest : List Token} (same : outcome rule cursor = outcome rule' middle)
    (quiet : Quiet cursor middle) (reaches : Reaches rule' middle value rest) :
    Reaches rule cursor value rest := by
  rcases reaches with ⟨reached, shape, later, tail⟩ | ⟨reached, shape⟩
  · exact .inl ⟨reached, same.trans shape, quiet.trans later, tail⟩
  · exact .inr ⟨reached, same.trans shape⟩

theorem Reaches.of_rule {rule : Rule α} (rule' : Rule α) {cursor : Cursor} {value : α}
    {rest : List Token} (same : outcome rule cursor = outcome rule' cursor)
    (reaches : Reaches rule' cursor value rest) : Reaches rule cursor value rest :=
  Reaches.of_eq same (Quiet.refl cursor) reaches

theorem reaches_pure {cursor : Cursor} (value : α) {rest : List Token}
    (tail : cursor.ahead.tail = rest) : Reaches (pure value) cursor value rest :=
  .inl ⟨cursor, rfl, Quiet.refl cursor, tail⟩

theorem reaches_current {next : Token → Rule α} {cursor : Cursor} {value : α} {rest : List Token}
    (reaches : Reaches (next cursor.current) cursor value rest) :
    Reaches (current >>= next) cursor value rest :=
  Reaches.of_eq (outcome_current_bind next cursor) (Quiet.refl cursor) reaches

theorem reaches_peek {next : Token → Rule α} {cursor : Cursor} {value : α} {rest : List Token}
    (reaches : Reaches (next cursor.peek) cursor value rest) :
    Reaches (peek >>= next) cursor value rest :=
  Reaches.of_eq (outcome_peek_bind next cursor) (Quiet.refl cursor) reaches

theorem reaches_identifier {next : Identifier → Rule α} {cursor : Cursor} {value : α}
    {rest : List Token}
    (reaches : Reaches (next ⟨cursor.current, cursor.current.literal⟩) cursor value rest) :
    Reaches (identifier >>= next) cursor value rest :=
  Reaches.of_eq rfl (Quiet.refl cursor) reaches

theorem reaches_advance {next : Unit → Rule α} {cursor : Cursor} {value : α} {rest : List Token}
    (reaches : Reaches (next ()) cursor.advance value rest) :
    Reaches (advance >>= next) cursor value rest :=
  Reaches.of_eq (outcome_advance_bind next cursor) (Quiet.advance cursor) reaches

theorem reaches_expect {next : Unit → Rule α} {cursor : Cursor} {kind : Kind} {value : α}
    {rest : List Token} (expected : upcoming cursor.ahead.tail = kind)
    (reaches : Reaches (next ()) cursor.advance value rest) :
    Reaches (expect kind >>= next) cursor value rest := by
  refine Reaches.of_eq ?_ (Quiet.advance cursor) reaches
  have peek : cursor.peek.kind = kind := expected
  rw [outcome_bind, outcome_expect, if_pos peek]

end

section

variable {sub : Precedence → Rule Node}

/-- Climbing with as many rounds as there are tokens. -/
def climbing (sub : Precedence → Rule Node) (precedence : Precedence) (left : Node) :
    Rule Node := do
  climb sub precedence (← remaining) left

theorem climb_stops (precedence : Precedence) (rounds : Nat) (left : Node) {cursor : Cursor}
    (bound : cursor.nextRank ≤ precedence.rank) :
    outcome (climb sub precedence rounds left) cursor = (.ok left, cursor) := by
  cases rounds with
  | zero => rfl
  | succ rounds =>
      have stops : ¬precedence.rank < (Precedence.ofKind cursor.peek.kind).rank :=
        Nat.not_lt.mpr bound
      rw [climb, outcome_peek_bind, if_neg stops]
      rfl

/-- More rounds than there are tokens change nothing. -/
theorem climb_enough (orderly : ∀ precedence, Orderly (sub precedence)) (precedence : Precedence)
    {first second : Nat} (left : Node) {cursor : Cursor}
    (enough : cursor.ahead.tail.length ≤ first) (enough' : cursor.ahead.tail.length ≤ second) :
    outcome (climb sub precedence first left) cursor =
      outcome (climb sub precedence second left) cursor := by
  induction first generalizing second left cursor with
  | zero =>
      have last := List.length_eq_zero_iff.mp (Nat.le_zero.mp enough)
      have bound : cursor.nextRank ≤ precedence.rank := by
        rw [nextRank_of_tail_nil last]
        exact precedence.rank_pos
      rw [climb_stops precedence 0 left bound, climb_stops precedence second left bound]
  | succ first ih =>
      by_cases continues : precedence.rank < cursor.nextRank
      · cases second with
        | zero =>
            have last := List.length_eq_zero_iff.mp (Nat.le_zero.mp enough')
            have positive := precedence.rank_pos
            rw [nextRank_of_tail_nil last] at continues
            omega
        | succ second =>
            have condition : precedence.rank < (Precedence.ofKind cursor.peek.kind).rank :=
              continues
            simp only [climb, outcome_peek_bind, if_pos condition, outcome_advance_bind]
            rw [outcome_bind, outcome_bind]
            rcases shape : outcome (extend sub left) cursor.advance with ⟨refusal | wider, middle⟩
            · rfl
            · have follows := ((orderly_extend orderly left).follows shape).length_le
              have shorter : middle.ahead.length ≤ cursor.ahead.tail.length := follows
              have tail : middle.ahead.tail.length = middle.ahead.length - 1 := List.length_tail
              exact ih wider (by omega) (by omega)
      · have bound := Nat.le_of_not_lt continues
        rw [climb_stops precedence _ left bound, climb_stops precedence _ left bound]

theorem climbing_stops (precedence : Precedence) (left : Node) {cursor : Cursor}
    (bound : cursor.nextRank ≤ precedence.rank) :
    outcome (climbing sub precedence left) cursor = (.ok left, cursor) := by
  rw [climbing, outcome_remaining_bind]
  exact climb_stops precedence _ left bound

/-- A round of climbing reads what continues the expression and climbs on from there. -/
theorem climbing_continues (orderly : ∀ precedence, Orderly (sub precedence))
    (precedence : Precedence) (left : Node) {cursor : Cursor}
    (continues : precedence.rank < cursor.nextRank) :
    outcome (climbing sub precedence left) cursor =
      outcome (extend sub left >>= climbing sub precedence) cursor.advance := by
  have condition : precedence.rank < (Precedence.ofKind cursor.peek.kind).rank := continues
  have positive := precedence.rank_pos
  rw [climbing, outcome_remaining_bind]
  cases shape : cursor.ahead.length with
  | zero =>
      have empty := List.length_eq_zero_iff.mp shape
      have last : cursor.ahead.tail = [] := by rw [empty, List.tail_nil]
      rw [nextRank_of_tail_nil last] at continues
      omega
  | succ rounds =>
      simp only [climb, outcome_peek_bind, if_pos condition, outcome_advance_bind]
      rw [outcome_bind, outcome_bind]
      rcases extended : outcome (extend sub left) cursor.advance with ⟨refusal | wider, middle⟩
      · rfl
      · have follows := ((orderly_extend orderly left).follows extended).length_le
        have shorter : middle.ahead.length ≤ cursor.ahead.tail.length := follows
        have taken : cursor.ahead.tail.length = cursor.ahead.length - 1 := List.length_tail
        have tail : middle.ahead.tail.length = middle.ahead.length - 1 := List.length_tail
        simp only [climbing, outcome_remaining_bind]
        exact climb_enough orderly precedence wider (by omega) (by omega)

end

/-- An expression starts with `node` and goes on as far as its precedence admits, unless no level is
left. -/
def Leads (depth : Nat) (precedence : Precedence) (cursor : Cursor) (node : Node)
    (rest : List Token) : Prop :=
  (∃ reached, Quiet cursor reached ∧ reached.ahead.tail = rest ∧
    outcome (expression (depth + 1) precedence) cursor =
      outcome (climbing (expression depth) precedence node) reached) ∨
    Exhausted (expression (depth + 1) precedence) cursor

section

variable {depth : Nat} {precedence : Precedence} {cursor : Cursor} {node left wider : Node}
  {rest middle : List Token}

theorem leads_of_operand (reaches : Reaches (operand (expression depth)) cursor node rest) :
    Leads depth precedence cursor node rest := by
  have parts : expression (depth + 1) precedence =
      operand (expression depth) >>= climbing (expression depth) precedence := rfl
  rcases reaches with ⟨reached, shape, quiet, tail⟩ | exhausted
  · refine .inl ⟨reached, quiet, tail, ?_⟩
    rw [parts, outcome_bind_ok shape]
  · exact .inr (exhausted.bind _)

theorem Leads.widen (leads : Leads depth precedence cursor left middle)
    (continues : precedence.rank < upcomingRank middle)
    (extended : ∀ stopped, Quiet cursor stopped → stopped.ahead.tail = middle →
      Reaches (extend (expression depth) left) stopped.advance wider rest) :
    Leads depth precedence cursor wider rest := by
  rcases leads with ⟨stopped, quiet, tail, same⟩ | exhausted
  · have climbs : precedence.rank < stopped.nextRank := by
      rw [Cursor.nextRank, tail]
      exact continues
    rw [climbing_continues (orderly_expression depth) precedence left climbs] at same
    rcases extended stopped quiet tail with ⟨reached, shape, later, ends⟩ | exhausted
    · refine .inl ⟨reached, (quiet.trans (Quiet.advance stopped)).trans later, ends, ?_⟩
      rw [same, outcome_bind_ok shape]
    · obtain ⟨reached, shape⟩ := exhausted.bind (climbing (expression depth) precedence)
      exact .inr ⟨reached, same.trans shape⟩
  · exact .inr exhausted

theorem Leads.reaches (leads : Leads depth precedence cursor node rest)
    (bound : upcomingRank rest ≤ precedence.rank) :
    Reaches (expression (depth + 1) precedence) cursor node rest := by
  rcases leads with ⟨stopped, quiet, tail, same⟩ | exhausted
  · have stops : stopped.nextRank ≤ precedence.rank := by
      rw [Cursor.nextRank, tail]
      exact bound
    refine .inl ⟨stopped, ?_, quiet, tail⟩
    rw [same, climbing_stops precedence node stops]
  · exact .inr exhausted

end

end MonkeyLang.Grammar
