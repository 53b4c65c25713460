import MonkeyLang.Grammar
import MonkeyLang.Proofs.Grammar.Progress
import MonkeyLang.Proofs.Grammar.Relation

/-!
The limit on nested expressions. Reading reports the limit just where it asks for an expression below
the last level (`cut_iff`), and where it does not, further levels change nothing
(`readTokens_deeper`).
-/

namespace MonkeyLang

namespace Grammar

/-- Expressions of `depth` levels, with `below` in place of all that are further down. -/
def expressionAbove (below : Precedence → Rule Node) : Nat → Precedence → Rule Node
  | 0 => below
  | depth + 1 => fun precedence => do
    let left ← operand (expressionAbove below depth)
    climb (expressionAbove below depth) precedence (← remaining) left

theorem expressionAbove_expression (levels depth : Nat) :
    expressionAbove (expression levels) depth = expression (levels + depth) := by
  induction depth with
  | zero => rfl
  | succ depth ih =>
      funext precedence
      rw [expressionAbove, ih]
      rfl

/-- Reads tokens with `sub` for the expressions in statements. -/
def readWith (sub : Precedence → Rule Node) (tokens : List Token) : Parsed :=
  match outcome (program sub) (Cursor.start tokens) with
  | (.ok node, cursor) => ⟨node, cursor.mistakes⟩
  | (.error _, cursor) => ⟨.program [], cursor.mistakes⟩

/-- Reading comes to the end of the levels somewhere: what would be further down makes a difference. -/
def Cut (depth : Nat) (tokens : List Token) : Prop :=
  ∃ below, readWith (expressionAbove below depth) tokens ≠ readTokens depth tokens

/-- A rule has run out of levels, or it has been reported that one did. -/
def Reported {α : Type} (result : Except Refusal α × Cursor) : Prop :=
  result.1 = .error .tooDeep ∨ .tooDeep ∈ result.2.mistakes

/-- The rules come to the same, unless the first runs out of levels. -/
structure Agrees (α : Type) (rule other : Rule α) : Prop where
  keeps : ∀ cursor, cursor.mistakes <+: (outcome rule cursor).2.mistakes
  same : ∀ cursor, ¬Reported (outcome rule cursor) → outcome other cursor = outcome rule cursor

theorem Orderly.agrees {α : Type} {rule : Rule α} (orderly : Orderly rule) :
    Agrees α rule rule where
  keeps _ := (orderly.follows rfl).mistakes
  same _ _ := rfl

theorem agrees_bind {α β : Type} {rule other : Rule α} {next next' : α → Rule β}
    (first : Agrees α rule other) (second : ∀ value, Agrees β (next value) (next' value)) :
    Agrees β (rule >>= next) (other >>= next') where
  keeps cursor := by
    have kept := first.keeps cursor
    rw [outcome_bind]
    generalize outcome rule cursor = half at kept ⊢
    rcases half with ⟨refusal | value, reached⟩
    · exact kept
    · exact kept.trans ((second value).keeps reached)
  same cursor quiet := by
    have same := first.same cursor
    rw [outcome_bind] at quiet ⊢
    rw [outcome_bind]
    generalize outcome rule cursor = half at same quiet ⊢
    rcases half with ⟨refusal | value, reached⟩
    · rw [same]
      rintro (⟨⟨⟩⟩ | noted)
      · exact quiet (.inl rfl)
      · exact quiet (.inr noted)
    · rw [same]
      · exact (second value).same reached quiet
      · rintro (⟨⟨⟩⟩ | noted)
        exact quiet (.inr (((second value).keeps reached).subset noted))

/-- A statement that runs out of levels leaves the report behind, or the attempt runs out of levels
with it. -/
theorem agrees_attempt {sub sub' : Precedence → Rule Node}
    (inner : Agrees Node (statement sub) (statement sub')) :
    Agrees (Option Node) (attempt sub) (attempt sub') where
  keeps cursor := by
    have kept := inner.keeps cursor
    rw [outcome_attempt]
    generalize outcome (statement sub) cursor = half at kept ⊢
    rcases half with ⟨(_ | _) | node, reached⟩
    · exact kept
    · dsimp only
      split
      · exact kept.trans (List.prefix_append _ _)
      · exact kept
    · exact kept
  same cursor quiet := by
    have same := inner.same cursor
    rw [outcome_attempt] at quiet ⊢
    rw [outcome_attempt]
    generalize outcome (statement sub) cursor = half at same quiet ⊢
    rcases half with ⟨(_ | _) | node, reached⟩
    · rw [same]
      rintro (⟨⟨⟩⟩ | noted)
      exact quiet (.inr noted)
    · apply absurd _ quiet
      dsimp only
      split
      · exact .inr (List.mem_append_right _ List.mem_cons_self)
      · exact .inl rfl
    · rw [same]
      rintro (⟨⟨⟩⟩ | noted)
      exact quiet (.inr noted)

theorem agrees_congruence : Congruence Agrees where
  pure value := (orderly_pure value).agrees
  bind := agrees_bind
  look _ := ⟨fun cursor => List.prefix_refl cursor.mistakes, fun _ _ => rfl⟩
  advance := orderly_advance.agrees
  openBlock := ⟨fun cursor => List.prefix_refl cursor.mistakes, fun _ _ => rfl⟩
  closeBlock := ⟨fun cursor => List.prefix_refl cursor.mistakes, fun _ _ => rfl⟩
  refuse mistake _ := (orderly_refuse mistake).agrees
  attempt := agrees_attempt

theorem agrees_expression (below : Precedence → Rule Node) (depth : Nat) (precedence : Precedence) :
    Agrees Node (expression depth precedence) (expressionAbove below depth precedence) := by
  induction depth generalizing precedence with
  | zero => exact ⟨orderly_tooDeep.agrees.keeps, fun _ quiet => absurd (.inl rfl) quiet⟩
  | succ depth ih =>
      apply agrees_bind (operand_related agrees_congruence ih)
      intro left
      apply agrees_bind (remaining_related agrees_congruence)
      intro rounds
      exact climb_related agrees_congruence ih precedence rounds left

/-- A rule that never runs out of levels. -/
def Unbounded (α : Type) (rule : Rule α) : Prop :=
  ∀ cursor, .tooDeep ∉ cursor.mistakes → ¬Reported (outcome rule cursor)

theorem unbounded_of_kept {α : Type} {rule : Rule α}
    (kept : ∀ cursor, (outcome rule cursor).1 ≠ .error .tooDeep ∧
      (outcome rule cursor).2.mistakes = cursor.mistakes) : Unbounded α rule := by
  rintro cursor clean (deep | noted)
  · exact (kept cursor).1 deep
  · rw [(kept cursor).2] at noted
    exact clean noted

theorem unbounded_refuse {α : Type} {mistake : Mistake} (bounded : mistake ≠ .tooDeep) :
    Unbounded α (refuse mistake) := by
  rintro cursor clean (⟨⟨⟩⟩ | noted)
  rw [outcome_refuse] at noted
  rcases List.mem_append.mp noted with before | here
  · exact clean before
  · exact bounded (List.mem_singleton.mp here).symm

theorem unbounded_bind {α β : Type} {rule : Rule α} {next : α → Rule β} (first : Unbounded α rule)
    (second : ∀ value, Unbounded β (next value)) : Unbounded β (rule >>= next) := by
  intro cursor clean
  have quiet := first cursor clean
  rw [outcome_bind]
  generalize outcome rule cursor = half at quiet ⊢
  rcases half with ⟨refusal | value, reached⟩
  · rintro (⟨⟨⟩⟩ | noted)
    · exact quiet (.inl rfl)
    · exact quiet (.inr noted)
  · exact second value reached fun noted => quiet (.inr noted)

theorem unbounded_attempt {sub : Precedence → Rule Node} (inner : Unbounded Node (statement sub)) :
    Unbounded (Option Node) (attempt sub) := by
  intro cursor clean
  have quiet := inner cursor clean
  rw [outcome_attempt]
  generalize outcome (statement sub) cursor = half at quiet ⊢
  rcases half with ⟨(_ | _) | node, reached⟩
  · rintro (⟨⟨⟩⟩ | noted)
    exact quiet (.inr noted)
  · exact absurd (.inl rfl) quiet
  · rintro (⟨⟨⟩⟩ | noted)
    exact quiet (.inr noted)

theorem unbounded_congruence : Congruence fun α rule _ => Unbounded α rule where
  pure _ := unbounded_of_kept fun _ => ⟨nofun, rfl⟩
  bind := unbounded_bind
  look _ := unbounded_of_kept fun _ => ⟨nofun, rfl⟩
  advance := unbounded_of_kept fun _ => ⟨nofun, rfl⟩
  openBlock := unbounded_of_kept fun _ => ⟨nofun, rfl⟩
  closeBlock := unbounded_of_kept fun _ => ⟨nofun, rfl⟩
  refuse _ bounded := unbounded_refuse bounded
  attempt := unbounded_attempt

theorem unbounded_expressionAbove {below : Precedence → Rule Node}
    (unbounded : ∀ precedence, Unbounded Node (below precedence)) (depth : Nat)
    (precedence : Precedence) : Unbounded Node (expressionAbove below depth precedence) := by
  induction depth generalizing precedence with
  | zero => exact unbounded precedence
  | succ depth ih =>
      apply unbounded_bind (@operand_related _ unbounded_congruence _ (expressionAbove below depth) ih)
      intro left
      apply unbounded_bind (remaining_related unbounded_congruence)
      intro rounds
      exact @climb_related _ unbounded_congruence _ (expressionAbove below depth) ih precedence rounds
        left

theorem program_settled {sub : Precedence → Rule Node}
    (orderly : ∀ precedence, Orderly (sub precedence)) (tokens : List Token) :
    ∃ node reached, outcome (program sub) (Cursor.start tokens) = (.ok node, reached) := by
  obtain ⟨nodes, reached, read⟩ := statementsFor_settled orderly .endOfInput
    (Cursor.start tokens).ahead.length (rfl : (Cursor.start tokens).openBlocks = 0)
  refine ⟨.program nodes, reached, ?_⟩
  rw [program, statements, outcome_bind, outcome_remaining_bind, read]
  rfl

variable {depth : Nat} {tokens : List Token}

/-- Where the limit is not reported, nothing below the last level was asked for. -/
theorem readWith_above (quiet : .tooDeep ∉ (readTokens depth tokens).mistakes)
    (below : Precedence → Rule Node) :
    readWith (expressionAbove below depth) tokens = readTokens depth tokens := by
  have agrees := program_related agrees_congruence (agrees_expression below depth)
  obtain ⟨node, reached, read⟩ := program_settled (orderly_expression depth) tokens
  rw [readTokens_of_program read] at quiet ⊢
  have same := agrees.same (Cursor.start tokens)
  rw [read] at same
  rw [readWith, same]
  rintro (⟨⟨⟩⟩ | noted)
  exact quiet noted

/-- Reading reports the limit just where it comes to the end of the levels. -/
theorem cut_iff : Cut depth tokens ↔ .tooDeep ∈ (readTokens depth tokens).mistakes := by
  constructor
  · rintro ⟨below, differs⟩
    apply Decidable.byContradiction
    intro quiet
    exact differs (readWith_above quiet below)
  · intro noted
    -- A mistake of another kind below the last level is never reported as the limit.
    let mistake : Mistake := .noOperand .illegal
    refine ⟨fun _ => refuse mistake, fun same => ?_⟩
    have unbounded := @program_related _ unbounded_congruence _ (expression depth)
      (unbounded_expressionAbove (fun _ => unbounded_refuse (nofun : mistake ≠ .tooDeep)) depth)
    have clean := unbounded (Cursor.start tokens) nofun
    rw [← same, readWith] at noted
    generalize outcome (program _) (Cursor.start tokens) = read at clean noted
    rcases read with ⟨refusal | node, reached⟩
    · exact clean (.inr noted)
    · exact clean (.inr noted)

/-- Further levels change nothing where the limit is not reported. -/
theorem readTokens_deeper {deeper : Nat} (bound : depth ≤ deeper)
    (quiet : .tooDeep ∉ (readTokens depth tokens).mistakes) :
    readTokens deeper tokens = readTokens depth tokens := by
  have levels : expressionAbove (expression (deeper - depth)) depth = expression deeper := by
    rw [expressionAbove_expression, Nat.sub_add_cancel bound]
  rw [← readWith_above quiet (expression (deeper - depth)), levels]
  rfl

theorem head?_append {front back : String} {c : Char} (first : front.toList.head? = some c) :
    (front ++ back).toList.head? = some c := by
  rw [String.toList_append, List.head?_append, first]
  rfl

theorem Mistake.head?_message {mistake : Mistake} (bounded : mistake ≠ .tooDeep) :
    ∃ c, c ≠ 'm' ∧ mistake.message.toList.head? = some c := by
  have expecting : "expected next token to be ".toList.head? = some 'e' := by decide +kernel
  have missing : "no prefix parse function for ".toList.head? = some 'n' := by decide +kernel
  have unreadable : "could not parse ".toList.head? = some 'c' := by decide +kernel
  have unclosed : "expected ".toList.head? = some 'e' := by decide +kernel
  cases mistake with
  | tooDeep => exact absurd rfl bounded
  | expected =>
      exact ⟨'e', by decide, head?_append (head?_append (head?_append (head?_append expecting)))⟩
  | noOperand => exact ⟨'n', by decide, head?_append (head?_append missing)⟩
  | badNumeral => exact ⟨'c', by decide, head?_append (head?_append unreadable)⟩
  | unclosedBlock =>
      exact ⟨'e', by decide, head?_append (head?_append (head?_append (head?_append unclosed)))⟩

/-- No other mistake is reported in the words of the limit. -/
theorem Mistake.message_eq_tooDeep {mistake : Mistake} :
    mistake.message = Mistake.tooDeep.message ↔ mistake = .tooDeep := by
  constructor
  · intro same
    by_cases bounded : mistake = .tooDeep
    · exact bounded
    · obtain ⟨c, apart, first⟩ := head?_message bounded
      have last : Mistake.tooDeep.message.toList.head? = some 'm' := by decide +kernel
      rw [same, last] at first
      exact absurd (Option.some.inj first).symm apart
  · rintro rfl
    rfl

end Grammar

theorem Parsed.tooDeep_mem_messages {parsed : Parsed} :
    Grammar.Mistake.tooDeep.message ∈ parsed.messages ↔ .tooDeep ∈ parsed.mistakes := by
  rw [messages, List.mem_map]
  simp only [Grammar.Mistake.message_eq_tooDeep, exists_eq_right]

end MonkeyLang
