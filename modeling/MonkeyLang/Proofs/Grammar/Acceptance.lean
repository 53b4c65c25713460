import MonkeyLang.Proofs.Grammar.Completeness
import MonkeyLang.Proofs.Grammar.Soundness

/-!
The programs that are read without a mistake are those of the grammar, each with the tree that the
grammar gives it.
-/

namespace MonkeyLang

namespace Grammar

theorem complete_readTokens {depth : Nat} {tokens : List Token} {nodes : List Node}
    (derives : Derives tokens (.statements nodes))
    (bounded : .tooDeep ∉ (readTokens depth tokens).mistakes) :
    readTokens depth tokens = ⟨.program nodes, []⟩ := by
  have orderly := orderly_expression depth
  have ahead : (Cursor.start tokens).ahead = tokens ++ [] := (List.append_nil tokens).symm
  have ends : ReachesEnd depth .endOfInput tokens.length (Cursor.start tokens) nodes [] :=
    derives.read ahead rfl (.inr rfl) (Nat.le_refl _)
  rcases ends with ⟨reached, read, quiet, _⟩ | ⟨inside, _⟩ | ⟨_, recorded⟩
  · rw [readTokens_eq read, quiet.mistakes]
    rfl
  · exact absurd rfl inside
  · have outermost : (Cursor.start tokens).openBlocks = 0 := rfl
    obtain ⟨read, reached, shape⟩ :=
      statementsFor_settled orderly .endOfInput tokens.length outermost
    rw [shape] at recorded
    rw [readTokens_eq shape] at bounded
    exact absurd recorded bounded

/-- The statements of a source that is read without a mistake derive from all of its tokens. -/
theorem derives_of_clean {depth : Nat} {source : String}
    (clean : (readText depth source).mistakes = []) :
    ∃ nodes, (readText depth source).program = .program nodes ∧
      Derives (Token.scan source.toList) (.statements nodes) := by
  obtain ⟨nodes, used, shape, derives, _, whole⟩ := sound_readTokens depth (.scan source.toList)
  rw [whole clean] at derives
  exact ⟨nodes, shape, derives⟩

section

variable {depth : Nat} {cursor reached : Cursor} {node : Node}

/-- An operand behind which there is nothing is the whole of an expression. -/
theorem outcome_expression_last (precedence : Precedence)
    (first : outcome (operand (expression depth)) cursor = (.ok node, reached))
    (last : reached.ahead.tail = []) :
    outcome (expression (depth + 1) precedence) cursor = (.ok node, reached) := by
  have parts : expression (depth + 1) precedence =
      operand (expression depth) >>= climbing (expression depth) precedence := rfl
  have stops : reached.nextRank ≤ precedence.rank := by
    rw [nextRank_of_tail_nil last]
    exact precedence.rank_pos
  rw [parts, outcome_bind_ok first, climbing_stops precedence node stops]

theorem outcome_statement_last (starts : cursor.current.kind ∈ starters)
    (value : outcome (expression depth .lowest) cursor = (.ok node, reached))
    (last : reached.ahead.tail = []) :
    outcome (statement (expression depth)) cursor =
      (.ok (.statement cursor.current node), reached) := by
  have next : reached.peek = Token.sentinel := by
    rw [Cursor.peek, last]
    rfl
  rw [outcome_statement starts, expressionStatement, outcome_current_bind, outcome_bind_ok value,
    outcome_bind, outcome_passSemicolon, next]
  rfl

/-- An expression behind which there is nothing is the whole of a program. -/
theorem readTokens_last {token : Token} {others : List Token} (starts : token.kind ∈ starters)
    (value : outcome (expression depth .lowest) (Cursor.start (token :: others)) =
      (.ok node, reached)) (last : reached.ahead.tail = []) :
    readTokens depth (token :: others) = ⟨.program [.statement token node], reached.mistakes⟩ := by
  have first : outcome (statement (expression depth)) (Cursor.start (token :: others)) =
      (.ok (.statement token node), reached) := outcome_statement_last starts value last
  have kept : outcome (attempt (expression depth)) (Cursor.start (token :: others)) =
      (.ok (some (.statement token node)), reached) := by
    rw [outcome_attempt, first]
  have more : ¬(token.kind = .endOfInput ∨ token.kind = .endOfInput) := by
    rw [or_self]
    intro ends
    rw [ends] at starts
    exact absurd starts (by decide)
  have ended : outcome (statementsFor (expression depth) .endOfInput others.length)
      reached.advance = (.ok [], reached.advance) := by
    cases others.length with
    | zero => rfl
    | succ rounds =>
        have stopped : reached.advance.current = Token.sentinel := by
          rw [Cursor.current, Cursor.advance, last]
          rfl
        rw [statementsFor, outcome_current_bind, stopped]
        rfl
  have read : outcome (statementsFor (expression depth) .endOfInput (token :: others).length)
      (Cursor.start (token :: others)) = (.ok [.statement token node], reached.advance) := by
    rw [List.length_cons, statementsFor, outcome_current_bind]
    refine (congrArg (outcome · _) (if_neg more)).trans ?_
    rw [outcome_bind_ok kept]
    exact outcome_bind_ok ended
  have whole := readTokens_eq read
  exact whole

end

/-- Reading accepts the sources whose tokens derive statements, and gives these statements. -/
theorem accepted_iff_derives (depth : Nat) (source : String) (tree : Node)
    (bounded : .tooDeep ∉ (readText depth source).mistakes) :
    ((readText depth source).mistakes = [] ∧ (readText depth source).program = tree) ↔
      ∃ nodes, tree = .program nodes ∧
        Derives (Token.scan source.toList) (.statements nodes) := by
  constructor
  · rintro ⟨clean, rfl⟩
    have scanned : Scanned (Token.scan source.toList) :=
      fun token member => Token.lexical_of_mem_scan member
    obtain ⟨nodes, used, shape, derives, _, whole⟩ := sound_readTokens depth scanned
    rw [whole clean] at derives
    exact ⟨nodes, shape, derives⟩
  · rintro ⟨nodes, rfl, derives⟩
    have read : readText depth source = ⟨.program nodes, []⟩ := complete_readTokens derives bounded
    rw [read]
    exact ⟨rfl, rfl⟩

theorem accepted_iff_derives_conditional :
    .tooDeep ∉ (readText 4 "let x = a - -1 * 2 if (!f(x, 3)) \x7b x \x7d else \x7b \x7d").mistakes ∧
      ∃ nodes,
        (readText 4 "let x = a - -1 * 2 if (!f(x, 3)) \x7b x \x7d else \x7b \x7d").program =
            .program nodes ∧
          Derives (Token.scan
            "let x = a - -1 * 2 if (!f(x, 3)) \x7b x \x7d else \x7b \x7d".toList)
            (.statements nodes) := by
  have bounded : Mistake.tooDeep ∉
      (readText 4 "let x = a - -1 * 2 if (!f(x, 3)) \x7b x \x7d else \x7b \x7d").mistakes := by
    decide +kernel
  have clean :
      (readText 4 "let x = a - -1 * 2 if (!f(x, 3)) \x7b x \x7d else \x7b \x7d").mistakes =
        [] := by
    decide +kernel
  exact ⟨bounded, (accepted_iff_derives 4 _ _ bounded).mp ⟨clean, rfl⟩⟩

end Grammar

theorem readProgram_eq_ok {source : String} {program : Node} :
    readProgram source = .ok program ↔
      (Parsed.ofText source).mistakes = [] ∧ (Parsed.ofText source).program = program := by
  simp only [readProgram]
  split
  · rename_i clean
    rw [Except.ok.injEq, List.isEmpty_iff.mp clean, eq_self, true_and]
  · rename_i mistaken
    rw [List.isEmpty_iff] at mistaken
    exact ⟨nofun, fun accepted => absurd accepted.1 mistaken⟩

/-- Sources with the same tokens have the same program. -/
theorem readProgram_of_scan {source other : String} {program : Node}
    (accepted : readProgram source = .ok program)
    (same : Token.scan other.toList = Token.scan source.toList) : readProgram other = .ok program := by
  have parsed : Parsed.ofText other = Parsed.ofText source := congrArg Parsed.ofTokens same
  rw [readProgram_eq_ok] at accepted ⊢
  rw [parsed]
  exact accepted

end MonkeyLang
