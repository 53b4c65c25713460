import MonkeyLang.Proofs.Grammar.Depth
import MonkeyLang.Proofs.Grammar.Kept
import MonkeyLang.Proofs.Grammar.Pairing

/-!
Where reading ends. A rule takes tokens from before the end of the input only and draws each of them
once (`Consumes`), every round of statements takes at least one, and no more levels are needed than
there are tokens. So reading comes to an end, on the first token that ends the input
(`reading_ends`).
-/

namespace MonkeyLang.Grammar

open Token (Kind)

/-- From one place to another only tokens before the end of the input were taken, and as many were
drawn. -/
def Consumes (before after : Cursor) : Prop :=
  ∃ taken, before.ahead = taken ++ after.ahead ∧ (∀ token ∈ taken, token.kind ≠ .endOfInput) ∧
    after.drawn = before.drawn + taken.length

theorem leftover_le (enclosed : Bool) (braces : Nat) (tokens : List Token) :
    leftover enclosed braces tokens ≤ tokens.length := by
  induction tokens generalizing braces with
  | nil => exact Nat.le_refl 0
  | cons token rest ih =>
      unfold leftover
      split
      · exact Nat.zero_le _
      · exact Nat.succ_le_succ (ih _)
      · split
        · exact Nat.zero_le _
        · exact Nat.succ_le_succ (ih _)
      · split
        · exact Nat.succ_le_succ (Nat.zero_le _)
        · exact Nat.succ_le_succ (ih _)
      · exact Nat.succ_le_succ (ih _)

/-- Passing over a malformed statement does not pass the end of the input. -/
theorem present_leftover (enclosed : Bool) (braces : Nat) (tokens : List Token) :
    ∀ token ∈ tokens.take (leftover enclosed braces tokens), token.kind ≠ .endOfInput := by
  induction tokens generalizing braces with
  | nil => exact nofun
  | cons token rest ih =>
      have further (braces : Nat) (present : token.kind ≠ .endOfInput) :
          ∀ other ∈ (token :: rest).take (leftover enclosed braces rest + 1),
            other.kind ≠ .endOfInput :=
        List.forall_mem_cons.mpr ⟨present, ih braces⟩
      unfold leftover
      split
      · exact nofun
      · exact further _ (by simp [*])
      · split
        · exact nofun
        · exact further _ (by simp [*])
      · split
        · exact List.forall_mem_singleton.mpr (by simp [*])
        · exact further _ (by simp [*])
      · exact further _ ‹_›

namespace Consumes

variable {before between after cursor : Cursor}

theorem still (ahead : after.ahead = before.ahead) (drawn : after.drawn = before.drawn) :
    Consumes before after :=
  ⟨[], ahead.symm, nofun, drawn⟩

theorem trans (first : Consumes before between) (second : Consumes between after) :
    Consumes before after := by
  obtain ⟨taken, ahead, present, drawn⟩ := first
  obtain ⟨taken', ahead', present', drawn'⟩ := second
  refine ⟨taken ++ taken', ?_, List.forall_mem_append.mpr ⟨present, present'⟩, ?_⟩
  · rw [ahead, ahead', List.append_assoc]
  · rw [drawn', drawn, List.length_append, Nat.add_assoc]

theorem advance (more : cursor.current.kind ≠ .endOfInput) : Consumes cursor cursor.advance :=
  ⟨[cursor.current], ahead_eq_cons more, List.forall_mem_singleton.mpr more, rfl⟩

theorem drop (cursor : Cursor) : Consumes cursor cursor.drop := by
  refine ⟨cursor.ahead.take (leftover (0 < cursor.openBlocks) 0 cursor.ahead),
    (List.take_append_drop _ _).symm, present_leftover _ _ _, ?_⟩
  rw [List.length_take_of_le (leftover_le _ _ _)]
  rfl

/-- Where the input ends nothing is taken any more. -/
theorem drawn_of_end (consumes : Consumes before after)
    (ends : before.current.kind = .endOfInput) : after.drawn = before.drawn := by
  obtain ⟨taken, ahead, present, drawn⟩ := consumes
  cases taken with
  | nil => exact drawn
  | cons token rest =>
      have first : before.current = token := by rw [Cursor.current, ahead]; rfl
      rw [first] at ends
      exact absurd ends (present token List.mem_cons_self)

theorem drawn_lt (consumes : Consumes before after)
    (shorter : after.ahead.length < before.ahead.length) : before.drawn < after.drawn := by
  obtain ⟨taken, ahead, -, drawn⟩ := consumes
  rw [ahead, List.length_append] at shorter
  omega

end Consumes

/-- One reading, from a place on that it takes tokens from. -/
def consuming (start : Cursor) : Pairing where
  unread c c' := c = c' ∧ Consumes start c
  read c c' := c = c' ∧ Consumes start c ∧ c.current.kind ≠ .endOfInput
  ended c c' := c = c' ∧ Consumes start c ∧ c.current.kind ≠ .endOfInput
  refused c c' := c = c' ∧ Consumes start c
  cut c c' := c = c' ∧ Consumes start c

theorem consuming_steps (start : Cursor) : (consuming start).Steps where
  current_unread := fun ⟨same, _⟩ => congrArg Cursor.current same
  current_read := fun ⟨same, _⟩ => congrArg Cursor.current same
  peek_read := fun ⟨same, _⟩ => congrArg Cursor.peek same
  take := by
    rintro c c' ⟨same, consumes⟩ plain
    refine ⟨same, consumes, ?_⟩
    intro ends
    rw [ends] at plain
    cases plain
  advance := fun ⟨same, consumes, more⟩ =>
    ⟨congrArg Cursor.advance same, consumes.trans (.advance more)⟩
  refuse_unread := fun mistake ⟨same, consumes⟩ =>
    ⟨congrArg (Cursor.record · mistake) same, consumes.trans (.still rfl rfl)⟩
  refuse_read := fun mistake ⟨same, consumes, _⟩ =>
    ⟨congrArg (Cursor.record · mistake) same, consumes.trans (.still rfl rfl)⟩
  finish := id
  finish_semicolon := by
    rintro c c' ⟨same, consumes, more⟩ ends
    have kind : c.advance.current.kind = .semicolon := ends
    exact ⟨congrArg Cursor.advance same, consumes.trans (.advance more), by simp [kind]⟩
  tooDeep := id
  enter := by
    rintro c c' ⟨same, consumes⟩ opens
    have more : c.current.kind ≠ .endOfInput := by simp [opens]
    exact ⟨congrArg (Cursor.openBlock ·.advance) same,
      (consumes.trans (.advance more)).trans (.still rfl rfl)⟩
  inside := by
    rintro c c' ⟨rfl, _⟩ inside
    exact inside
  onward := fun ⟨same, consumes, more⟩ _ =>
    ⟨congrArg Cursor.advance same, consumes.trans (.advance more)⟩
  skip := fun ⟨same, consumes⟩ _ => ⟨congrArg Cursor.drop same, consumes.trans (.drop _)⟩
  leave := by
    rintro c c' ⟨same, consumes⟩ _ closes
    have kind : c.closeBlock.current.kind = .closeBrace := closes
    exact ⟨congrArg Cursor.closeBlock same, consumes.trans (.still rfl rfl), by simp [kind]⟩
  unclosed := fun mistake ⟨same, consumes⟩ _ =>
    ⟨congrArg (Cursor.record ·.closeBlock mistake) same, consumes.trans (.still rfl rfl)⟩

/-- What is taken up to where a rule stops, which is a token of the input if it gives a value. -/
def Taken {α : Type} (start : Cursor) (result : Except Refusal α × Cursor) : Prop :=
  Consumes start result.2 ∧ ∀ value, result.1 = .ok value → result.2.current.kind ≠ .endOfInput

theorem taken_of_matches {α : Type} {start : Cursor} {result : Except Refusal α × Cursor}
    (matched : (consuming start).Matches (consuming start).read result result) :
    Taken start result := by
  rcases result with ⟨refusal | value, reached⟩
  · cases matched with
    | refused related => exact ⟨related.2, nofun⟩
    | cut related => exact ⟨related.2, nofun⟩
  · cases matched with
    | accepted _ related => exact ⟨related.2.1, fun _ _ => related.2.2⟩

theorem taken_expression (depth : Nat) (precedence : Precedence) (cursor : Cursor) :
    Taken cursor (outcome (expression depth precedence) cursor) :=
  taken_of_matches (Pairing.carries_expression (consuming_steps cursor) depth precedence cursor
    cursor ⟨rfl, .still rfl rfl⟩)

theorem taken_statement (depth : Nat) (cursor : Cursor) :
    Taken cursor (outcome (statement (expression depth)) cursor) :=
  taken_of_matches (Pairing.carries_statement (consuming_steps cursor)
    (Pairing.carries_expression (consuming_steps cursor) depth) cursor cursor
    ⟨rfl, .still rfl rfl⟩)

/-- Where a round of statements goes on after its attempt. -/
def behind : Except Refusal (Option Node) × Cursor → Cursor
  | (.ok (some _), reached) => reached.advance
  | (_, reached) => reached

theorem consumes_attempt (depth : Nat) (cursor : Cursor) :
    Consumes cursor (behind (outcome (attempt (expression depth)) cursor)) := by
  have taken := taken_statement depth cursor
  rw [outcome_attempt]
  generalize outcome (statement (expression depth)) cursor = read at taken ⊢
  obtain ⟨consumes, more⟩ := taken
  rcases read with ⟨(_ | _) | node, reached⟩
  · exact consumes.trans (.drop reached)
  · dsimp only
    split
    · have closed : Consumes reached (reached.record .tooDeep).closeAllBlocks := .still rfl rfl
      exact consumes.trans (closed.trans (.drop _))
    · exact consumes
  · exact consumes.trans (.advance (more node rfl))

section

variable {stop : Kind} {cursor : Cursor}

/-- A round of statements that goes on has left a token behind. -/
theorem attempt_shortens (depth : Nat) (inside : stop = .closeBrace ∨ cursor.openBlocks = 0)
    (more : ¬(cursor.current.kind = stop ∨ cursor.current.kind = .endOfInput))
    {attempted : Option Node} {reached : Cursor}
    (read : outcome (attempt (expression depth)) cursor = (.ok attempted, reached)) :
    (behind (.ok attempted, reached)).ahead.length < cursor.ahead.length := by
  have orderly := orderly_expression depth
  obtain ⟨before, present⟩ := not_or.mp more
  cases attempted with
  | none =>
      refine attempt_none_shortens orderly read present fun closes => ?_
      rcases inside with rfl | outermost
      · exact absurd closes before
      · exact outermost
  | some node =>
      have shorter := ((orderly_attempt orderly).follows read).length_le
      have taken := ahead_eq_cons present
      have positive : 0 < cursor.ahead.length := by rw [taken]; exact Nat.succ_pos _
      have passed : reached.advance.ahead.length = reached.ahead.length - 1 := List.length_tail
      change reached.advance.ahead.length < _
      omega

theorem consumes_statementsFor (depth : Nat) (stop : Kind) (rounds : Nat) (cursor : Cursor) :
    Consumes cursor (outcome (statementsFor (expression depth) stop rounds) cursor).2 := by
  induction rounds generalizing cursor with
  | zero => exact .still rfl rfl
  | succ rounds ih =>
      by_cases ends : cursor.current.kind = stop ∨ cursor.current.kind = .endOfInput
      · rw [statementsFor_stops _ _ ends]
        exact .still rfl rfl
      · have consumes := consumes_attempt depth cursor
        rw [statementsFor_continues _ _ ends]
        generalize outcome (attempt (expression depth)) cursor = read at consumes ⊢
        rcases read with ⟨refusal | _ | first, reached⟩
        · exact consumes
        · exact consumes.trans (ih reached)
        · have later := consumes.trans (ih reached.advance)
          simp only [outcome_map]
          generalize outcome (statementsFor (expression depth) stop rounds) reached.advance = rest
            at later ⊢
          rcases rest with ⟨refusal | others, last⟩
          · exact later
          · exact later

/-- With as many rounds as there are tokens, statements go on to where they have to stop. -/
theorem statementsFor_ends (depth : Nat) {rounds : Nat} {nodes : List Node} {last : Cursor}
    (inside : stop = .closeBrace ∨ cursor.openBlocks = 0) (enough : cursor.ahead.length ≤ rounds)
    (read : outcome (statementsFor (expression depth) stop rounds) cursor = (.ok nodes, last)) :
    last.current.kind = stop ∨ last.current.kind = .endOfInput := by
  induction rounds generalizing cursor nodes with
  | zero =>
      cases read
      have empty := List.length_eq_zero_iff.mp (Nat.le_zero.mp enough)
      exact .inr (by simp [Cursor.current, empty, Token.sentinel])
  | succ rounds ih =>
      by_cases ends : cursor.current.kind = stop ∨ cursor.current.kind = .endOfInput
      · rw [statementsFor_stops _ _ ends] at read
        cases read
        exact ends
      · rw [statementsFor_continues _ _ ends] at read
        rcases shape : outcome (attempt (expression depth)) cursor with
          ⟨refusal | attempted, reached⟩
        · rw [shape] at read
          cases read
        · have shorter := attempt_shortens depth inside ends shape
          have balanced : reached.openBlocks = cursor.openBlocks :=
            (orderly_attempt (orderly_expression depth)).balanced shape (by rintro ⟨⟩)
          rw [shape] at read
          cases attempted with
          | none =>
              have inside' : stop = .closeBrace ∨ reached.openBlocks = 0 := by rwa [balanced]
              exact ih inside' (Nat.le_of_lt_succ (Nat.lt_of_lt_of_le shorter enough)) read
          | some first =>
              simp only [outcome_map] at read
              rcases rest : outcome (statementsFor (expression depth) stop rounds) reached.advance with
                ⟨refusal | others, finish⟩
              · rw [rest] at read
                cases read
              · rw [rest] at read
                cases read
                have inside' : stop = .closeBrace ∨ reached.advance.openBlocks = 0 := by
                  rw [← balanced] at inside
                  exact inside
                exact ih inside' (Nat.le_of_lt_succ (Nat.lt_of_lt_of_le shorter enough)) rest

end

/-- A rule runs out of levels only where there are at least so many tokens ahead. -/
def Spends (levels : Nat) (α : Type) (rule : Rule α) : Prop :=
  ∀ cursor, (outcome rule cursor).2.ahead.length ≤ cursor.ahead.length ∧
    (.tooDeep ∉ cursor.mistakes → Reported (outcome rule cursor) → levels ≤ cursor.ahead.length)

section

variable {α β : Type} {levels : Nat}

theorem spends_of_kept {rule : Rule α}
    (shorter : ∀ cursor, (outcome rule cursor).2.ahead.length ≤ cursor.ahead.length)
    (unbounded : Unbounded α rule) : Spends levels α rule :=
  fun cursor => ⟨shorter cursor, fun clean reported => absurd reported (unbounded cursor clean)⟩

theorem spends_bind {rule : Rule α} {next : α → Rule β} (first : Spends levels α rule)
    (second : ∀ value, Spends levels β (next value)) : Spends levels β (rule >>= next) := by
  intro cursor
  obtain ⟨shorter, spent⟩ := first cursor
  rw [outcome_bind]
  generalize outcome rule cursor = half at shorter spent ⊢
  rcases half with ⟨refusal | value, reached⟩
  · refine ⟨shorter, fun clean reported => spent clean ?_⟩
    rcases reported with deep | noted
    · exact .inl (by cases deep; rfl)
    · exact .inr noted
  · obtain ⟨shorter', spent'⟩ := second value reached
    refine ⟨Nat.le_trans shorter' shorter, fun clean reported => ?_⟩
    by_cases noted : .tooDeep ∈ reached.mistakes
    · exact spent clean (.inr noted)
    · exact Nat.le_trans (spent' noted reported) shorter

theorem spends_attempt {sub : Precedence → Rule Node}
    (inner : Spends levels Node (statement sub)) : Spends levels (Option Node) (attempt sub) := by
  intro cursor
  obtain ⟨shorter, spent⟩ := inner cursor
  rw [outcome_attempt]
  generalize outcome (statement sub) cursor = half at shorter spent ⊢
  rcases half with ⟨(_ | _) | node, reached⟩
  · refine ⟨Nat.le_trans (length_drop_le reached) shorter, ?_⟩
    rintro clean (⟨⟨⟩⟩ | noted)
    exact spent clean (.inr noted)
  · refine ⟨?_, fun clean _ => spent clean (.inl rfl)⟩
    dsimp only
    split
    · exact Nat.le_trans (length_drop_le (reached.record .tooDeep).closeAllBlocks) shorter
    · exact shorter
  · refine ⟨shorter, ?_⟩
    rintro clean (⟨⟨⟩⟩ | noted)
    exact spent clean (.inr noted)

theorem spends_congruence (levels : Nat) : Congruence fun α rule _ => Spends levels α rule where
  pure value := spends_of_kept (fun _ => Nat.le_refl _) (unbounded_congruence.pure value)
  bind := spends_bind
  look view := spends_of_kept (fun _ => Nat.le_refl _) (unbounded_congruence.look view)
  advance := spends_of_kept (fun cursor => (Follows.advance cursor).length_le)
    unbounded_congruence.advance
  openBlock := spends_of_kept (fun _ => Nat.le_refl _) unbounded_congruence.openBlock
  closeBlock := spends_of_kept (fun _ => Nat.le_refl _) unbounded_congruence.closeBlock
  refuse _ bounded := spends_of_kept (fun _ => Nat.le_refl _) (unbounded_refuse bounded)
  attempt := spends_attempt

variable {cursor : Cursor}

/-- A rule that starts with a token has one level more. -/
theorem taken_spends {next : Unit → Rule β} (rest : ∀ value, Spends levels β (next value))
    (more : cursor.ahead ≠ []) (clean : .tooDeep ∉ cursor.mistakes)
    (reported : Reported (outcome (advance >>= next) cursor)) :
    levels + 1 ≤ cursor.ahead.length := by
  rw [outcome_advance_bind] at reported
  have spent : levels ≤ cursor.ahead.tail.length := (rest () cursor.advance).2 clean reported
  have positive := List.length_pos_iff.mpr more
  rw [List.length_tail] at spent
  omega

theorem expected_spends {kind : Kind} {next : Unit → Rule β}
    (rest : ∀ value, Spends levels β (next value)) (more : cursor.ahead ≠ [])
    (clean : .tooDeep ∉ cursor.mistakes)
    (reported : Reported (outcome (expect kind >>= next) cursor)) :
    levels + 1 ≤ cursor.ahead.length := by
  rw [outcome_bind, outcome_expect] at reported
  by_cases found : cursor.peek.kind = kind
  · rw [if_pos found] at reported
    exact taken_spends rest more clean reported
  · rw [if_neg found] at reported
    rcases reported with deep | noted
    · cases deep
    · rcases List.mem_append.mp noted with before | here
      · exact absurd before clean
      · cases List.mem_singleton.mp here

end

theorem ahead_ne_nil {cursor : Cursor} (more : cursor.current.kind ≠ .endOfInput) :
    cursor.ahead ≠ [] := by
  rw [ahead_eq_cons more]
  exact List.cons_ne_nil _ _

section

variable {levels : Nat} {sub : Precedence → Rule Node}
  (level : ∀ precedence, Spends levels Node (sub precedence)) {cursor : Cursor}
  (more : cursor.ahead ≠ []) (clean : .tooDeep ∉ cursor.mistakes)
include level more clean

theorem unary_spends (reported : Reported (outcome (unary sub) cursor)) :
    levels + 1 ≤ cursor.ahead.length := by
  rw [unary, outcome_current_bind] at reported
  apply taken_spends _ more clean reported
  intro _
  exact spends_bind (level .unary) fun operand => (spends_congruence levels).pure _

theorem grouped_spends (reported : Reported (outcome (grouped sub) cursor)) :
    levels + 1 ≤ cursor.ahead.length := by
  have closed := spends_congruence levels
  apply taken_spends _ more clean reported
  intro _
  apply spends_bind (level .lowest)
  intro inner
  exact spends_bind (expect_related closed _) fun _ => closed.pure _

theorem conditional_spends (reported : Reported (outcome (conditional sub) cursor)) :
    levels + 1 ≤ cursor.ahead.length := by
  rw [conditional, outcome_current_bind] at reported
  have closed := spends_congruence levels
  have inner := @block_related _ closed sub sub level
  apply expected_spends _ more clean reported
  intro _
  apply spends_bind closed.advance
  intro _
  apply spends_bind (level .lowest)
  intro condition
  apply spends_bind (expect_related closed _)
  intro _
  apply spends_bind (expect_related closed _)
  intro _
  apply spends_bind inner
  intro consequence
  apply spends_bind (peek_related closed)
  intro next
  split
  · apply spends_bind closed.advance
    intro _
    apply spends_bind (expect_related closed _)
    intro _
    exact spends_bind inner fun alternative => closed.pure _
  · exact closed.pure _

theorem function_spends (reported : Reported (outcome (function sub) cursor)) :
    levels + 1 ≤ cursor.ahead.length := by
  rw [function, outcome_current_bind] at reported
  have closed := spends_congruence levels
  apply expected_spends _ more clean reported
  intro _
  apply spends_bind (parameters_related closed)
  intro names
  apply spends_bind (expect_related closed _)
  intro _
  exact spends_bind (@block_related _ closed sub sub level) fun body => closed.pure _

end

section

variable {levels : Nat} {sub : Precedence → Rule Node}
  (level : ∀ precedence, Spends levels Node (sub precedence))
include level

/-- What is in an operand comes behind its first token, so there is a level more for the operand. -/
theorem spends_operand : Spends (levels + 1) Node (operand sub) := by
  have closed := spends_congruence levels
  have shorter := @operand_related _ closed sub sub level
  intro cursor
  refine ⟨(shorter cursor).1, fun clean => ?_⟩
  have quiet {rule : Rule Node} (unbounded : Unbounded Node rule)
      (reported : Reported (outcome rule cursor)) : levels + 1 ≤ cursor.ahead.length :=
    absurd reported (unbounded cursor clean)
  have more (kind : Kind) (same : cursor.current.kind = kind) (token : kind ≠ .endOfInput) :
      cursor.ahead ≠ [] :=
    ahead_ne_nil (same ▸ token)
  rw [operand, outcome_current_bind]
  split <;> rename_i kind
  · exact quiet (unbounded_bind (identifier_related unbounded_congruence) fun _ =>
      unbounded_congruence.pure _)
  · exact quiet (number_related unbounded_congruence)
  · exact quiet (truth_related unbounded_congruence)
  · exact quiet (truth_related unbounded_congruence)
  · exact unary_spends level (more _ kind nofun) clean
  · exact unary_spends level (more _ kind nofun) clean
  · exact grouped_spends level (more _ kind nofun) clean
  · exact conditional_spends level (more _ kind nofun) clean
  · exact function_spends level (more _ kind nofun) clean
  · exact quiet (unbounded_refuse nofun)

theorem spends_climb (precedence : Precedence) (rounds : Nat) (left : Node) :
    Spends (levels + 1) Node (climb sub precedence rounds left) := by
  have closed := spends_congruence levels
  have shorter := @climb_related _ closed sub sub level precedence rounds left
  intro cursor
  refine ⟨(shorter cursor).1, fun clean => ?_⟩
  have quiet (reported : Reported (outcome (pure left : Rule Node) cursor)) :
      levels + 1 ≤ cursor.ahead.length :=
    absurd reported (unbounded_congruence.pure left cursor clean)
  cases rounds with
  | zero => exact quiet
  | succ rounds =>
      rw [climb, outcome_peek_bind]
      by_cases continues : precedence.rank < (Precedence.ofKind cursor.peek.kind).rank
      · rw [if_pos continues]
        have present : cursor.peek.kind ≠ .endOfInput := by
          intro ends
          have bound := precedence.rank_pos
          rw [ends] at continues
          exact absurd (Nat.lt_of_le_of_lt bound continues) (by decide)
        have more : cursor.ahead ≠ [] := by
          intro empty
          rw [Cursor.peek, empty] at present
          exact present rfl
        apply taken_spends _ more clean
        intro _
        apply spends_bind (@extend_related _ closed sub sub level left)
        intro wider
        exact @climb_related _ closed sub sub level precedence rounds wider
      · rw [if_neg continues]
        exact quiet

end

theorem spends_expression (depth : Nat) (precedence : Precedence) :
    Spends depth Node (expression depth precedence) := by
  induction depth generalizing precedence with
  | zero => exact fun cursor => ⟨Nat.le_refl _, fun _ _ => Nat.zero_le _⟩
  | succ depth ih =>
      apply spends_bind (spends_operand ih)
      intro left
      apply spends_bind (remaining_related (spends_congruence (depth + 1)))
      intro rounds
      exact spends_climb ih precedence rounds left

/-- With more levels than there are tokens the limit on levels is never met. -/
theorem levels_suffice {depth : Nat} {tokens : List Token} (enough : tokens.length < depth) :
    .tooDeep ∉ (readTokens depth tokens).mistakes := by
  intro noted
  obtain ⟨node, last, read⟩ := program_settled (orderly_expression depth) tokens
  have spends := @program_related _ (spends_congruence depth) _ (expression depth)
    (spends_expression depth) (Cursor.start tokens)
  rw [readTokens_of_program read] at noted
  rw [read] at spends
  have bound : depth ≤ tokens.length := spends.2 nofun (.inr noted)
  omega

/-- The place where reading tokens has to end: on the first one that ends the input, with the two in
view drawn and no block open. -/
structure Finished (tokens : List Token) (last : Cursor) : Prop where
  current : last.current.kind = .endOfInput
  ahead : last.ahead = tokens.dropWhile (·.kind ≠ .endOfInput)
  drawn : last.drawn = (tokens.takeWhile (·.kind ≠ .endOfInput)).length + 2
  openBlocks : last.openBlocks = 0

theorem finished_of_consumes {tokens : List Token} {last : Cursor}
    (consumes : Consumes (Cursor.start tokens) last) (ends : last.current.kind = .endOfInput)
    (balanced : last.openBlocks = 0) : Finished tokens last := by
  obtain ⟨taken, ahead, present, drawn⟩ := consumes
  have split : tokens = taken ++ last.ahead := ahead
  have inside : ∀ token ∈ taken, decide (token.kind ≠ .endOfInput) := by simpa using present
  have beyond : last.ahead.takeWhile (·.kind ≠ .endOfInput) = [] ∧
      last.ahead.dropWhile (·.kind ≠ .endOfInput) = last.ahead := by
    rw [Cursor.current] at ends
    cases shape : last.ahead with
    | nil => exact ⟨rfl, rfl⟩
    | cons token rest =>
        rw [shape] at ends
        have kind : token.kind = .endOfInput := ends
        simp [kind]
  refine ⟨ends, ?_, ?_, balanced⟩
  · rw [split, List.dropWhile_append_of_pos inside, beyond.2]
  · rw [split, List.takeWhile_append_of_pos inside, beyond.1, List.append_nil, drawn, Nat.add_comm]
    rfl

/-- The places that expressions and statements lead to. -/
inductive LeadsTo (depth : Nat) (cursor : Cursor) : Cursor → Prop
  | expression (precedence : Precedence) :
      LeadsTo depth cursor (outcome (expression depth precedence) cursor).2
  | statement : LeadsTo depth cursor (outcome (statement (expression depth)) cursor).2
  | statements (stop : Kind) (rounds : Nat) :
      LeadsTo depth cursor (outcome (statementsFor (expression depth) stop rounds) cursor).2

theorem LeadsTo.consumes {depth : Nat} {cursor reached : Cursor}
    (leads : LeadsTo depth cursor reached) : Consumes cursor reached := by
  cases leads with
  | expression precedence => exact (taken_expression depth precedence cursor).1
  | statement => exact (taken_statement depth cursor).1
  | statements stop rounds => exact consumes_statementsFor depth stop rounds cursor

/-- The rounds of statements up to a token of the kind `stop` that begin at a cursor: one that goes
on takes a token, and they end where they have to stop. -/
structure Rounds (depth : Nat) (stop : Kind) (cursor : Cursor) : Prop where
  takes {attempted : Option Node} {reached : Cursor} :
    ¬(cursor.current.kind = stop ∨ cursor.current.kind = .endOfInput) →
      outcome (attempt (expression depth)) cursor = (.ok attempted, reached) →
        cursor.drawn < (behind (.ok attempted, reached)).drawn
  ends {nodes : List Node} {last : Cursor} :
    outcome (statements (expression depth) stop) cursor = (.ok nodes, last) →
      last.current.kind = stop ∨ last.current.kind = .endOfInput

theorem rounds_of_inside (depth : Nat) {stop : Kind} {cursor : Cursor}
    (inside : stop = .closeBrace ∨ cursor.openBlocks = 0) : Rounds depth stop cursor where
  takes more read := by
    have consumes := consumes_attempt depth cursor
    rw [read] at consumes
    exact consumes.drawn_lt (attempt_shortens depth inside more read)
  ends read := by
    rw [statements, outcome_remaining_bind] at read
    exact statementsFor_ends depth inside (Nat.le_refl _) read

/-- Reading comes to an end, on the first token that ends the input and with no block open. On the way
no expression or statement takes anything where the input has ended, and every round of statements
takes a token. This is so with any number of levels. With more of them than tokens the limit on levels
is never met, so that further ones change nothing. -/
theorem reading_ends (depth : Nat) (tokens : List Token) :
    (∃ nodes last,
      outcome (program (expression depth)) (Cursor.start tokens) = (.ok (.program nodes), last) ∧
        Finished tokens last) ∧
    (∀ cursor reached, LeadsTo depth cursor reached → Consumes cursor reached ∧
      (cursor.current.kind = .endOfInput → reached.drawn = cursor.drawn)) ∧
    (∀ stop cursor, stop = .closeBrace ∨ cursor.openBlocks = 0 → Rounds depth stop cursor) ∧
    (tokens.length < depth → .tooDeep ∉ (readTokens depth tokens).mistakes ∧
      ∀ deeper, depth ≤ deeper → readTokens deeper tokens = readTokens depth tokens) := by
  refine ⟨?_, ?_, ?_, ?_⟩
  · have outermost : (Cursor.start tokens).openBlocks = 0 := rfl
    have orderly := orderly_expression depth
    obtain ⟨nodes, last, read⟩ :=
      statementsFor_settled orderly .endOfInput tokens.length outermost
    have consumes := consumes_statementsFor depth .endOfInput tokens.length (Cursor.start tokens)
    have ends := statementsFor_ends depth (.inr outermost) (Nat.le_refl tokens.length) read
    have balanced := (orderly_statementsFor orderly _ _).balanced read nofun
    rw [read] at consumes
    refine ⟨nodes, last, ?_, finished_of_consumes consumes (ends.elim id id) balanced⟩
    rw [program, statements]
    exact outcome_bind_ok read
  · intro cursor reached leads
    exact ⟨leads.consumes, leads.consumes.drawn_of_end⟩
  · intro stop cursor inside
    exact rounds_of_inside depth inside
  · intro enough
    have quiet := levels_suffice enough
    exact ⟨quiet, fun deeper bound => readTokens_deeper bound quiet⟩

/-- Two statements are given up here, and the rounds of the block go on behind the first. -/
theorem reading_ends_past_mistakes :
    let tokens := Token.scan "fn() \x7b (fn() \x7b 1 \x7d 2; 3; \x7d let".toList
    let inner := (Cursor.start tokens).advance.advance.advance.advance.openBlock
    (readTokens 20 tokens).mistakes.length = 2 ∧
      (∃ nodes last,
        outcome (program (expression 20)) (Cursor.start tokens) = (.ok (.program nodes), last) ∧
          Finished tokens last ∧ last.drawn = 19) ∧
      Rounds 20 .closeBrace inner ∧
      .tooDeep ∉ (readTokens 20 tokens).mistakes ∧
      ∀ deeper, 20 ≤ deeper → readTokens deeper tokens = readTokens 20 tokens := by
  intro tokens inner
  have enough : tokens.length < 20 := by decide +kernel
  have count : (tokens.takeWhile (·.kind ≠ .endOfInput)).length = 17 := by decide +kernel
  obtain ⟨⟨nodes, last, read, finished⟩, -, repeats, suffice⟩ := reading_ends 20 tokens
  refine ⟨by decide +kernel, ⟨nodes, last, read, finished, ?_⟩, repeats _ _ (.inl rfl),
    suffice enough⟩
  rw [finished.drawn, count]

end MonkeyLang.Grammar
