import MonkeyLang.Proofs.Grammar.Containment

/-!
Statements in a block beside the same statements outside all blocks. They are read alike as long as
passing over a malformed one meets no brace that was opened before it was given up
(`readText_enclosed`). A statement that is given up on the last brace of a function or a conditional
in it does not meet that condition, and ends the block around it (`inner_brace_ends_block`).
-/

namespace MonkeyLang.Grammar

open Token (Kind fixed)

/-- The cursors at which statements outside all blocks are given up. -/
def refusals (sub : Precedence → Rule Node) : Nat → Cursor → List Cursor
  | 0, _ => []
  | rounds + 1, cursor =>
    if cursor.current.kind = .endOfInput then []
    else
      match outcome (statement sub) cursor with
      | (.ok _, reached) => refusals sub rounds reached.advance
      | (.error .malformed, stopped) => stopped :: refusals sub rounds stopped.drop
      | (.error .tooDeep, _) => []

/-- The cursors at which statements of a text are given up. -/
def refused (depth : Nat) (text : String) : List Cursor :=
  let tokens := Token.scan text.toList
  refusals (expression depth) tokens.length (Cursor.start tokens)

/-- What is left of a malformed statement closes no brace that it does not open. -/
def Mendable (stopped : Cursor) : Prop :=
  leftover true 0 stopped.ahead = leftover false 0 stopped.ahead

instance (stopped : Cursor) : Decidable (Mendable stopped) :=
  inferInstanceAs (Decidable (leftover true 0 stopped.ahead = leftover false 0 stopped.ahead))

theorem Mendable.current_ne {stopped : Cursor} (mendable : Mendable stopped) :
    stopped.current.kind ≠ .closeBrace := by
  intro kind
  have shape : stopped.ahead = stopped.current :: stopped.ahead.tail := by
    apply ahead_eq_of_ne_nil
    intro empty
    rw [Cursor.current, empty] at kind
    cases kind
  rw [Mendable, shape] at mendable
  simp [leftover, kind] at mendable

/-- A brace that closes nothing starts no statement. -/
theorem statement_closeBrace (depth : Nat) {c : Cursor} (kind : c.current.kind = .closeBrace) :
    outcome (statement (expression (depth + 1))) c =
      (.error .malformed, c.record (.noOperand .closeBrace)) := by
  have refused : outcome (operand (expression depth)) c =
      (.error .malformed, c.record (.noOperand .closeBrace)) := by
    simp only [operand, outcome_current_bind, kind, outcome_refuse]
  simp only [statement, outcome_current_bind, kind, expressionStatement]
  rw [outcome_bind, expression, outcome_bind, refused]

theorem statement_no_level {c : Cursor} (kind : c.current.kind = .closeBrace) :
    outcome (statement (expression 0)) c = (.error .tooDeep, c) := by
  simp only [statement, outcome_current_bind, kind, expressionStatement]
  rfl

/-- Where no level is left that is recorded. -/
theorem tooDeep_recorded {depth rounds : Nat} {c stopped last : Cursor} {nodes : List Node}
    (more : c.current.kind ≠ .endOfInput) (outermost : c.openBlocks = 0)
    (cut : outcome (statement (expression depth)) c = (.error .tooDeep, stopped))
    (read : outcome (statementsFor (expression depth) .endOfInput (rounds + 1)) c =
      (.ok nodes, last)) : .tooDeep ∈ last.mistakes := by
  rw [statementsFor_continues _ _ (by simpa using more), outcome_attempt, cut] at read
  simp only [outermost, if_true] at read
  have follows := (orderly_statementsFor (orderly_expression depth) _ _).follows read
  apply follows.mistakes.mem
  exact List.mem_append_right _ List.mem_cons_self

theorem Between.mended {closing : Token} {earlier : List Mistake} {d d' : Cursor}
    (related : (besides [closing] 1 earlier).refused d d') (outermost : d.openBlocks = 0)
    (mendable : Mendable d) : Between [closing] 1 earlier d.drop d'.drop := by
  obtain ⟨beside, sheltered⟩ := related
  obtain ⟨nonempty, settled⟩ := sheltered.resolve_left (List.cons_ne_nil _ _)
  have without : decide (0 < d.openBlocks) = false := by rw [outermost]; rfl
  have within : decide (0 < d'.openBlocks) = true := by rw [beside.openBlocks, outermost]; rfl
  rw [outermost] at settled
  obtain ⟨same, bound, left⟩ :=
    leftover_settled (by simp : true = false → 0 = 0) [closing] nonempty settled
  refine ⟨beside.drop ?_ (.inr ?_), outermost, .inr ?_⟩
  · rw [within, without, beside.ahead, same, mendable]
  · rwa [without, ← mendable]
  · change Settled 0 (d.ahead.drop (leftover (0 < d.openBlocks) 0 d.ahead))
    rwa [without, ← mendable]

theorem Between.finished {closing : Token} (closes : closing.kind = .closeBrace)
    {earlier : List Mistake} {c c' : Cursor} (between : Between [closing] 1 earlier c c')
    (empty : c.ahead = []) (sub : Precedence → Rule Node) (rounds rounds' : Nat) :
    outcome (statementsFor sub .endOfInput rounds) c = (.ok [], c) ∧
      outcome (statementsFor sub .closeBrace rounds') c' = (.ok [], c') := by
  have ends : c.current.kind = .endOfInput := by rw [Cursor.current, empty]; rfl
  have ends' : c'.current.kind = .closeBrace := by
    rw [Cursor.current, between.beside.ahead, empty]
    exact closes
  exact ⟨statementsFor_stops sub rounds (.inr ends), statementsFor_stops sub rounds' (.inl ends')⟩

/-- One round of both readings: a statement is kept by both, or left out by both. -/
theorem attempt_enclosed (depth : Nat) {closing : Token} {earlier : List Mistake} {c c' : Cursor}
    (between : Between [closing] 1 earlier c c') (nonempty : c.ahead ≠ [])
    (uncut : ∀ stopped, outcome (statement (expression depth)) c ≠ (.error .tooDeep, stopped))
    (mendable : ∀ stopped, outcome (statement (expression depth)) c = (.error .malformed, stopped) →
      Mendable stopped) :
    ∃ attempted reached reached',
      outcome (attempt (expression depth)) c = (.ok attempted, reached) ∧
        outcome (attempt (expression depth)) c' = (.ok attempted, reached') ∧
        match attempted with
        | none => Between [closing] 1 earlier reached reached'
        | some _ => Between [closing] 1 earlier reached.advance reached'.advance := by
  have matched := between.statement nonempty depth
  have balanced := between.balanced depth
  rw [outcome_attempt, outcome_attempt]
  generalize outcome (statement (expression depth)) c = half at matched balanced uncut mendable
  generalize outcome (statement (expression depth)) c' = half' at matched
  cases matched with
  | accepted node related =>
      have outside := balanced _ _ rfl fun wrong => by cases wrong
      exact ⟨some node, _, _, rfl, rfl, .onward related outside⟩
  | refused related =>
      have outside := balanced _ _ rfl fun wrong => by cases wrong
      exact ⟨none, _, _, rfl, rfl, .mended related outside (mendable _ rfl)⟩
  | cut related => exact absurd rfl (uncut _)

/-- Statements in a block are read as they are outside all blocks, up to the brace that closes it. -/
theorem statementsFor_enclosed (depth rounds : Nat) {closing : Token}
    (closes : closing.kind = .closeBrace) {earlier : List Mistake} {c c' last : Cursor}
    {nodes : List Node} (between : Between [closing] 1 earlier c c')
    (present : ∀ token ∈ c.ahead, token.kind ≠ .endOfInput) (enough : c.ahead.length ≤ rounds)
    (mendable : ∀ stopped ∈ refusals (expression depth) rounds c, Mendable stopped)
    (read : outcome (statementsFor (expression depth) .endOfInput rounds) c = (.ok nodes, last))
    (bounded : .tooDeep ∉ last.mistakes) :
    ∃ last',
      outcome (statementsFor (expression depth) .closeBrace (rounds + 1)) c' = (.ok nodes, last') ∧
        Between [closing] 1 earlier last last' ∧ last.ahead = [] := by
  have orderly := orderly_expression depth
  induction rounds generalizing c c' nodes with
  | zero =>
      have empty := List.length_eq_zero_iff.mp (Nat.le_zero.mp enough)
      obtain ⟨stops, stops'⟩ := between.finished closes empty (expression depth) 0 1
      rw [stops] at read
      cases read
      exact ⟨c', stops', between, empty⟩
  | succ rounds ih =>
      by_cases empty : c.ahead = []
      · obtain ⟨stops, stops'⟩ :=
          between.finished closes empty (expression depth) (rounds + 1) (rounds + 1 + 1)
        rw [stops] at read
        cases read
        exact ⟨c', stops', between, empty⟩
      have more : c.current.kind ≠ .endOfInput := by
        apply present
        rw [ahead_eq_of_ne_nil empty]
        exact List.mem_cons_self
      have uncut : ∀ stopped, outcome (statement (expression depth)) c ≠ (.error .tooDeep, stopped) :=
        fun stopped cut => bounded (tooDeep_recorded more between.outermost cut read)
      rw [refusals, if_neg more] at mendable
      have mendable_now : ∀ stopped,
          outcome (statement (expression depth)) c = (.error .malformed, stopped) →
            Mendable stopped := by
        intro stopped shape
        rw [shape] at mendable
        exact mendable stopped List.mem_cons_self
      -- A brace here would be left out in the first reading and end the second one.
      have opens : c.current.kind ≠ .closeBrace := by
        intro kind
        cases depth with
        | zero => exact uncut c (statement_no_level kind)
        | succ depth => exact (mendable_now _ (statement_closeBrace depth kind)).current_ne kind
      have same := between.current_eq empty
      obtain ⟨attempted, reached, reached', now, now', later⟩ :=
        attempt_enclosed depth between empty uncut mendable_now
      have follows := (orderly_attempt orderly).follows now
      rw [statementsFor_continues _ _ (by simpa using more), now] at read
      rw [statementsFor_continues _ _ (by rw [← same]; simpa using ⟨opens, more⟩), now']
      cases attempted with
      | none =>
          have shorter := attempt_none_shortens orderly now more fun _ => between.outermost
          have present' : ∀ token ∈ reached.ahead, token.kind ≠ .endOfInput :=
            fun token member => present token (follows.ahead.mem member)
          rcases attempt_cases now with
            ⟨_, wrong, _⟩ | ⟨stopped, _, inner, rfl⟩ | ⟨stopped, _, _, inner, _⟩ | ⟨wrong, _⟩
          · cases wrong
          · rw [inner] at mendable
            exact ih later present' (by omega)
              (fun stopped member => mendable stopped (List.mem_cons_of_mem _ member)) read
          · exact absurd inner (uncut stopped)
          · cases wrong
      | some node =>
          rw [accepted_attempt now] at mendable
          have shorter := follows.length_le
          have some_ahead := List.length_pos_iff.mpr empty
          have passed : reached.advance.ahead.length = reached.ahead.length - 1 := List.length_tail
          have present' : ∀ token ∈ reached.advance.ahead, token.kind ≠ .endOfInput :=
            fun token member => present token (follows.ahead.mem (List.mem_of_mem_tail member))
          simp only [outcome_map] at read ⊢
          rcases rest_read : outcome (statementsFor (expression depth) .endOfInput rounds)
            reached.advance with ⟨refusal | rest, finish⟩
          · rw [rest_read] at read
            cases read
          · rw [rest_read] at read
            cases read
            obtain ⟨last', read', between', finished⟩ :=
              ih later present' (by omega) mendable rest_read
            exact ⟨last', by rw [read'], between', finished⟩

/-- The tokens of a function without parameters, of which some stand between its braces. -/
def enclosed (tokens : List Token) : List Token :=
  [fixed .fnWord, fixed .openParen, fixed .closeParen, fixed .openBrace] ++ tokens ++
    [fixed .closeBrace]

/-- Where the block of the function begins, with the current token on its brace. -/
def bodyOf (tokens : List Token) : Cursor :=
  (Cursor.start (enclosed tokens)).advance.advance.advance

theorem statement_function (depth : Nat) (tokens : List Token) {body : Node} {reached : Cursor}
    (read : outcome (block (expression depth)) (bodyOf tokens) = (.ok body, reached))
    (finished : reached.ahead.tail = []) :
    outcome (statement (expression (depth + 1))) (Cursor.start (enclosed tokens)) =
      (.ok (.statement (fixed .fnWord) (.function (fixed .fnWord) [] body)), reached) := by
  have first : outcome (operand (expression depth)) (Cursor.start (enclosed tokens)) =
      (.ok (.function (fixed .fnWord) [] body), reached) := by
    change outcome (block (expression depth) >>= fun body => pure _)
      (bodyOf tokens) = _
    rw [outcome_bind_ok read]
    rfl
  have ends : reached.peek.kind = .endOfInput := by rw [Cursor.peek, finished]; rfl
  have value : outcome (expression (depth + 1) .lowest) (Cursor.start (enclosed tokens)) =
      (.ok (.function (fixed .fnWord) [] body), reached) := by
    rw [expression, outcome_bind_ok first, outcome_remaining_bind]
    apply climb_stops
    rw [nextRank_of_tail_nil finished]
    exact Nat.le_refl 1
  have kind : (Cursor.start (enclosed tokens)).current.kind = .fnWord := rfl
  simp only [statement, outcome_current_bind, kind, expressionStatement]
  rw [outcome_bind_ok value, outcome_bind, outcome_passSemicolon, if_neg (by rw [ends]; decide)]
  rfl

theorem scan_function {text : List Char}
    (ends : ∀ token ∈ (Token.scan text).getLast?, token.kind = .semicolon) :
    Token.scan ("fn() \x7b ".toList ++ text ++ " \x7d".toList) =
      enclosed (Token.scan text) := by
  have closing : Token.scan " \x7d".toList = [fixed .closeBrace] := by
    change Token.scan [' ', '}'] = _
    rw [Token.scan_space, Token.scan_fixed rfl (by decide) (by decide), Token.scan_nil]
  have letters : ∀ letter ∈ ['n'], Token.isLetter letter := by simp [Token.isLetter]
  have word : (fixed .fnWord).Lexical := @Token.Lexical.word 'f' ['n'] (by decide) letters
  rw [enclosed, ← closing, List.append_assoc, List.append_assoc, ← Token.scan_append ends]
  calc
    _ = fixed .fnWord ::
        Token.scan ('(' :: ')' :: ' ' :: '{' :: ' ' :: (text ++ " \x7d".toList)) :=
      Token.scan_literal word (Token.edge_cons (by decide) _)
    _ = _ := by
      rw [Token.scan_openParen, Token.scan_closeParen, Token.scan_space,
        Token.scan_fixed rfl (by decide) (by decide), Token.scan_space]
      rfl

/-- Where the statements between the braces are read to the last one, the function is read. -/
theorem readTokens_function (depth : Nat) {tokens : List Token} {nodes : List Node} {last : Cursor}
    (read : outcome (statementsFor (expression depth) .closeBrace (tokens.length + 1))
      (bodyOf tokens).advance.openBlock = (.ok nodes, last))
    (finished : last.ahead = [fixed .closeBrace]) :
    readTokens (depth + 1) (enclosed tokens) =
      ⟨.program [.statement (fixed .fnWord)
        (.function (fixed .fnWord) [] (.block (fixed .openBrace) nodes))], last.mistakes⟩ := by
  have closes : last.current.kind = .closeBrace := by rw [Cursor.current, finished]; rfl
  have inner : outcome (statements (expression depth) .closeBrace) (bodyOf tokens).advance.openBlock =
      (.ok nodes, last) := by
    rw [statements, outcome_remaining_bind]
    change outcome (statementsFor _ _ (tokens ++ [fixed .closeBrace]).length) _ = _
    rwa [List.length_append]
  have body : outcome (block (expression depth)) (bodyOf tokens) =
      (.ok (.block (fixed .openBrace) nodes), last.closeBlock) := by
    rw [outcome_block, inner]
    simp only [closes, if_true]
    rfl
  have finished' : last.closeBlock.ahead.tail = [] := congrArg List.tail finished
  have ends : last.closeBlock.advance.current.kind = .endOfInput := by
    rw [Cursor.current, show last.closeBlock.advance.ahead = [] from finished']
    rfl
  have starts : (Cursor.start (enclosed tokens)).current.kind ≠ .endOfInput := Kind.noConfusion
  have whole : outcome (statementsFor (expression (depth + 1)) .endOfInput (enclosed tokens).length)
      (Cursor.start (enclosed tokens)) =
        (.ok [.statement (fixed .fnWord)
          (.function (fixed .fnWord) [] (.block (fixed .openBrace) nodes))],
          last.closeBlock.advance) := by
    change outcome (statementsFor _ _ ((tokens ++ [fixed .closeBrace]).length + 3 + 1)) _ = _
    rw [statementsFor_continues _ _ (by simpa using starts), outcome_attempt,
      statement_function depth _ body finished']
    simp only [outcome_map, statementsFor_stops _ _ (.inr ends)]
  rw [readTokens_eq whole]
  rfl

/-- A text whose braces are balanced is read in the block of a function as it is alone, one level
further down, unless what is passed over of a malformed statement closes more than it opens. -/
theorem readText_enclosed (depth : Nat) (text : String) (balanced : Balanced 0 text.toList)
    (ends : ∀ token ∈ (Token.scan text.toList).getLast?, token.kind = .semicolon)
    (bounded : .tooDeep ∉ (readText depth text).mistakes)
    (mendable : ∀ stopped ∈ refused depth text, Mendable stopped) :
    ∃ nodes, (readText depth text).program = .program nodes ∧
      readText (depth + 1) ("fn() \x7b " ++ text ++ " \x7d") =
        ⟨.program [.statement (fixed .fnWord)
          (.function (fixed .fnWord) [] (.block (fixed .openBrace) nodes))],
          (readText depth text).mistakes⟩ := by
  have outermost : (Cursor.start (Token.scan text.toList)).openBlocks = 0 := rfl
  obtain ⟨nodes, last, read⟩ := statementsFor_settled (orderly_expression depth) .endOfInput
    (Token.scan text.toList).length outermost
  have alone : readText depth text = ⟨.program nodes, last.mistakes⟩ := readTokens_eq read
  rw [alone] at bounded ⊢
  refine ⟨nodes, rfl, ?_⟩
  have between : Between [fixed .closeBrace] 1 [] (Cursor.start (Token.scan text.toList))
      (bodyOf (Token.scan text.toList)).advance.openBlock :=
    ⟨⟨rfl, rfl, rfl⟩, rfl, .inr (settled_scan balanced ends)⟩
  obtain ⟨last', read', between', finished⟩ :=
    statementsFor_enclosed depth (Token.scan text.toList).length rfl between
      (Token.present_scan text.toList) (Nat.le_refl _) mendable read bounded
  have finished' : last'.ahead = [fixed .closeBrace] := by rw [between'.beside.ahead, finished]; rfl
  have mistakes : last'.mistakes = last.mistakes := between'.beside.mistakes
  rw [readText, String.toList_append, String.toList_append, scan_function ends,
    readTokens_function depth read' finished', mistakes]

/-- Two statements are given up here outside the inner block, and one in it. -/
theorem readText_enclosed_malformed :
    (refused 4 "let 1; let f = fn(x) \x7b let = x; x \x7d; f(2; 3;").length = 2 ∧
      (readText 5 ("fn() \x7b " ++ "let 1; let f = fn(x) \x7b let = x; x \x7d; f(2; 3;" ++
        " \x7d")).mistakes =
        (readText 4 "let 1; let f = fn(x) \x7b let = x; x \x7d; f(2; 3;").mistakes := by
  have balanced : Balanced 0 "let 1; let f = fn(x) \x7b let = x; x \x7d; f(2; 3;".toList := by
    decide +kernel
  have ends : ∀ token ∈
      (Token.scan "let 1; let f = fn(x) \x7b let = x; x \x7d; f(2; 3;".toList).getLast?,
      token.kind = .semicolon := by
    decide +kernel
  have bounded : Mistake.tooDeep ∉
      (readText 4 "let 1; let f = fn(x) \x7b let = x; x \x7d; f(2; 3;").mistakes := by
    decide +kernel
  have mendable : ∀ stopped ∈ refused 4 "let 1; let f = fn(x) \x7b let = x; x \x7d; f(2; 3;",
      Mendable stopped := by
    decide +kernel
  obtain ⟨_, _, read⟩ := readText_enclosed 4 _ balanced ends bounded mendable
  constructor
  · decide +kernel
  · rw [read]

/-- The statement in parentheses is given up on the last brace of the function in it. In a block that
brace is taken for the one that closes the block. -/
theorem inner_brace_ends_block :
    Balanced 0 "(fn() \x7b 1 \x7d 2; 3;".toList ∧
      (Token.scan "(fn() \x7b 1 \x7d 2; 3;".toList).getLast?.map Token.kind = some .semicolon ∧
      (readText 9 "(fn() \x7b 1 \x7d 2; 3;").program.write = .ok "3" ∧
      (readText 9 "(fn() \x7b 1 \x7d 2; 3;").messages =
        ["expected next token to be RPAREN, got INT instead"] ∧
      (readText 9 "fn() \x7b (fn() \x7b 1 \x7d 2; 3; \x7d").program.write =
        .ok "fn() \x7b \x7d; 2; 3" ∧
      (readText 9 "fn() \x7b (fn() \x7b 1 \x7d 2; 3; \x7d").messages =
        ["expected next token to be RPAREN, got INT instead",
          "no prefix parse function for RBRACE found"] := by
  decide +kernel

end MonkeyLang.Grammar
