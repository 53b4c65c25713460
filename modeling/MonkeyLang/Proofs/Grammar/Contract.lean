import MonkeyLang.Grammar.Call
import MonkeyLang.Proofs.Grammar.Acceptance
import MonkeyLang.Proofs.Grammar.Alone
import MonkeyLang.Proofs.Grammar.Ending

/-!
A cursor that is moved by hand, by any method at any place. The tokens in view stay consecutive ones
of the source, blocks are closed as they are opened and no mistake is forgotten. An expression is what
its tokens are read as alone, up to the words for what follows them (`cursor_contract`).
-/

namespace MonkeyLang.Grammar

open Token (Kind)

/-- What can be done by hand: a call, or going on behind an expression that was read before. -/
inductive Method where
  | called (call : Call)
  | binary (left : Node)
  | application (callee : Node)

def Method.rule (depth : Nat) : Method → Rule Reply
  | .called call => call.rule depth
  | .binary left => do return .node (← Grammar.binary (expression depth) left)
  | .application callee => do return .node (← Grammar.call (expression depth) callee)

/-- The cursors that methods lead to, in any order, as long as the levels last. -/
inductive Driven (depth : Nat) (tokens : List Token) : Cursor → Prop
  | start : Driven depth tokens (Cursor.start tokens)
  | next {cursor reached : Cursor} {result : Except Refusal Reply} (method : Method)
      (driven : Driven depth tokens cursor)
      (moved : outcome (method.rule depth) cursor = (result, reached))
      (within : result ≠ .error .tooDeep) : Driven depth tokens reached

/-- The tokens ahead are those of the source from some place on, two of which are drawn. -/
def Placed (tokens : List Token) (cursor : Cursor) : Prop :=
  ∃ place, cursor.drawn = place + 2 ∧ cursor.ahead = tokens.drop place

namespace Placed

variable {tokens : List Token} {cursor : Cursor}

theorem start (tokens : List Token) : Placed tokens (Cursor.start tokens) := ⟨0, rfl, rfl⟩

theorem advance (placed : Placed tokens cursor) : Placed tokens cursor.advance := by
  obtain ⟨place, drawn, ahead⟩ := placed
  refine ⟨place + 1, congrArg (· + 1) drawn, ?_⟩
  change cursor.ahead.tail = _
  rw [ahead, List.tail_drop]

theorem skip (placed : Placed tokens cursor) (count : Nat) : Placed tokens (cursor.skip count) := by
  obtain ⟨place, drawn, ahead⟩ := placed
  refine ⟨place + count, ?_, ?_⟩
  · change cursor.drawn + count = _
    rw [drawn, Nat.add_right_comm]
  · change cursor.ahead.drop count = _
    rw [ahead, List.drop_drop]

/-- The tokens in view are consecutive ones of the source. -/
theorem consecutive (placed : Placed tokens cursor) :
    ∃ place, cursor.drawn = place + 2 ∧ cursor.current = tokens.getD place Token.sentinel ∧
      cursor.peek = tokens.getD (place + 1) Token.sentinel := by
  obtain ⟨place, drawn, ahead⟩ := placed
  refine ⟨place, drawn, ?_, ?_⟩
  · rw [Cursor.current, ahead, List.headD_eq_head?_getD, List.head?_drop, List.getD_eq_getElem?_getD]
  · rw [Cursor.peek, ahead, List.tail_drop, List.headD_eq_head?_getD, List.head?_drop,
      List.getD_eq_getElem?_getD]

end Placed

/-- A rule that keeps its place in the source. -/
def Places (tokens : List Token) (α : Type) (rule : Rule α) : Prop :=
  ∀ cursor, Placed tokens cursor → Placed tokens (outcome rule cursor).2

theorem places_bind {tokens : List Token} {α β : Type} {rule : Rule α} {next : α → Rule β}
    (first : Places tokens α rule) (second : ∀ value, Places tokens β (next value)) :
    Places tokens β (rule >>= next) := by
  intro cursor placed
  have half := first cursor placed
  rw [outcome_bind]
  generalize outcome rule cursor = read at half ⊢
  rcases read with ⟨refusal | value, reached⟩
  · exact half
  · exact second value reached half

theorem places_attempt {tokens : List Token} {sub : Precedence → Rule Node}
    (inner : Places tokens Node (statement sub)) : Places tokens (Option Node) (attempt sub) := by
  intro cursor placed
  have half := inner cursor placed
  rw [outcome_attempt]
  generalize outcome (statement sub) cursor = read at half ⊢
  rcases read with ⟨(_ | _) | node, reached⟩
  · exact half.skip _
  · dsimp only
    split
    · have closed : Placed tokens (reached.record .tooDeep).closeAllBlocks := half
      exact closed.skip _
    · exact half
  · exact half

theorem places_congruence (tokens : List Token) :
    Congruence fun α rule _ => Places tokens α rule where
  pure _ := fun _ placed => placed
  bind := places_bind
  look _ := fun _ placed => placed
  advance := fun _ placed => placed.advance
  openBlock := fun _ placed => placed
  closeBlock := fun _ placed => placed
  refuse _ _ := fun _ placed => placed
  attempt := places_attempt

theorem places_expression (tokens : List Token) (depth : Nat) (precedence : Precedence) :
    Places tokens Node (expression depth precedence) := by
  have closed := places_congruence tokens
  induction depth generalizing precedence with
  | zero => exact fun _ placed => placed
  | succ depth ih =>
      apply places_bind (@operand_related _ closed _ (expression depth) ih)
      intro left
      apply places_bind (remaining_related closed)
      intro rounds
      exact @climb_related _ closed _ (expression depth) ih precedence rounds left

theorem outcome_tryExpect (kind : Kind) (cursor : Cursor) :
    outcome (Call.tryExpect kind) cursor =
      if cursor.peek.kind = kind then (.ok (.flag true), cursor.advance)
      else (.ok (.flag false), cursor.record (.expected kind cursor.peek.kind)) := by
  rw [Call.tryExpect, outcome_tryCatch, outcome_bind, outcome_expect]
  by_cases found : cursor.peek.kind = kind
  · rw [if_pos found, if_pos found]
    rfl
  · rw [if_neg found, if_neg found]
    rfl

section

variable {sub : Precedence → Rule Node}

theorem places_binary {tokens : List Token}
    (level : ∀ precedence, Places tokens Node (sub precedence)) (left : Node) :
    Places tokens Node (binary sub left) := by
  have closed := places_congruence tokens
  apply places_bind (current_related closed)
  intro token
  apply places_bind closed.advance
  intro _
  exact places_bind (level _) fun right => closed.pure _

theorem places_call {tokens : List Token}
    (level : ∀ precedence, Places tokens Node (sub precedence)) (callee : Node) :
    Places tokens Node (call sub callee) := by
  have closed := places_congruence tokens
  apply places_bind (current_related closed)
  intro opening
  exact places_bind (@arguments_related _ closed sub sub level) fun given => closed.pure _

theorem orderly_binary (orderly : ∀ precedence, Orderly (sub precedence)) (left : Node) :
    Orderly (binary sub left) := by
  apply orderly_bind orderly_current
  intro token
  apply orderly_bind orderly_advance
  intro _
  exact orderly_bind (orderly _) fun right => orderly_pure _

theorem orderly_call (orderly : ∀ precedence, Orderly (sub precedence)) (callee : Node) :
    Orderly (call sub callee) := by
  apply orderly_bind orderly_current
  intro opening
  exact orderly_bind (orderly_arguments orderly) fun given => orderly_pure _

end

theorem places_method (tokens : List Token) (depth : Nat) (method : Method) :
    Places tokens Reply (method.rule depth) := by
  have closed := places_congruence tokens
  have level := places_expression tokens depth
  have answer {α : Type} {rule : Rule α} (reply : α → Reply) (places : Places tokens α rule) :
      Places tokens Reply (do return reply (← rule)) :=
    places_bind places fun _ => closed.pure _
  rcases method with call | left | callee
  · cases call with
    | advance => exact answer (fun _ => .nothing) closed.advance
    | restart => exact fun cursor placed => placed.skip _
    | expect kind =>
        intro cursor placed
        change Placed tokens (outcome (Call.tryExpect kind) cursor).2
        rw [outcome_tryExpect]
        split
        · exact placed.advance
        · exact placed
    | peekIs kind => exact answer (fun token => .flag (token.kind = kind)) (peek_related closed)
    | currentIs kind => exact answer (fun token => .flag (token.kind = kind)) (current_related closed)
    | peekPrecedence =>
        exact answer (fun token => .precedence (Precedence.ofKind token.kind)) (peek_related closed)
    | currentPrecedence =>
        exact answer (fun token => .precedence (Precedence.ofKind token.kind))
          (current_related closed)
    | program => exact answer .node (@program_related _ closed _ (expression depth) level)
    | statement => exact answer .node (@statement_related _ closed _ (expression depth) level)
    | letStatement => exact answer .node (@letStatement_related _ closed _ (expression depth) level)
    | returnStatement =>
        exact answer .node (@returnStatement_related _ closed _ (expression depth) level)
    | expressionStatement =>
        exact answer .node (@expressionStatement_related _ closed _ (expression depth) level)
    | block => exact answer .node (@block_related _ closed _ (expression depth) level)
    | expression precedence => exact answer .node (level precedence)
    | identifier => exact answer (fun name => .node (.name name)) (identifier_related closed)
    | number => exact answer .node (number_related closed)
    | truth => exact answer .node (truth_related closed)
    | unary => exact answer .node (@unary_related _ closed _ (expression depth) level)
    | grouped => exact answer .node (@grouped_related _ closed _ (expression depth) level)
    | conditional => exact answer .node (@conditional_related _ closed _ (expression depth) level)
    | function => exact answer .node (@function_related _ closed _ (expression depth) level)
    | parameters =>
        exact answer (fun names => .nodes (names.map .name)) (parameters_related closed)
    | arguments => exact answer .nodes (@arguments_related _ closed _ (expression depth) level)
  · exact answer .node (places_binary level left)
  · exact answer .node (places_call level callee)

theorem orderly_tryExpect (kind : Kind) : Orderly (Call.tryExpect kind) := by
  apply orderly_of_accepted (fun cursor => .flag (cursor.peek.kind = kind))
    (fun cursor => if cursor.peek.kind = kind then cursor.advance
      else cursor.record (.expected kind cursor.peek.kind))
  · intro cursor
    rw [outcome_tryExpect]
    by_cases found : cursor.peek.kind = kind <;> simp [found]
  · intro cursor
    split
    · exact .advance cursor
    · exact .record cursor _
  · intro cursor
    split
    · rfl
    · rfl

theorem orderly_method (depth : Nat) (method : Method) : Orderly (method.rule depth) := by
  have orderly := orderly_expression depth
  have answer {α : Type} {rule : Rule α} (reply : α → Reply) (orderly : Orderly rule) :
      Orderly (do return reply (← rule)) :=
    orderly_bind orderly fun _ => orderly_pure _
  rcases method with call | left | callee
  · cases call with
    | advance => exact answer (fun _ => .nothing) orderly_advance
    | restart =>
        exact orderly_of_accepted (fun _ => .nothing) Cursor.restart (fun _ => rfl)
          (fun cursor => ⟨List.drop_suffix _ _, List.prefix_refl _⟩) fun _ => rfl
    | expect kind => exact orderly_tryExpect kind
    | peekIs kind => exact answer (fun token => .flag (token.kind = kind)) orderly_peek
    | currentIs kind => exact answer (fun token => .flag (token.kind = kind)) orderly_current
    | peekPrecedence =>
        exact answer (fun token => .precedence (Precedence.ofKind token.kind)) orderly_peek
    | currentPrecedence =>
        exact answer (fun token => .precedence (Precedence.ofKind token.kind)) orderly_current
    | program =>
        exact answer .node (orderly_bind (orderly_statements orderly _) fun _ => orderly_pure _)
    | statement => exact answer .node (orderly_statement orderly)
    | letStatement => exact answer .node (orderly_letStatement orderly)
    | returnStatement => exact answer .node (orderly_returnStatement orderly)
    | expressionStatement => exact answer .node (orderly_expressionStatement orderly)
    | block => exact answer .node (orderly_block orderly)
    | expression precedence => exact answer .node (orderly precedence)
    | identifier => exact answer (fun name => .node (.name name)) orderly_identifier
    | number => exact answer .node orderly_number
    | truth => exact answer .node orderly_truth
    | unary => exact answer .node (orderly_unary orderly)
    | grouped => exact answer .node (orderly_grouped orderly)
    | conditional => exact answer .node (orderly_conditional orderly)
    | function => exact answer .node (orderly_function orderly)
    | parameters => exact answer (fun names => .nodes (names.map .name)) orderly_parameters
    | arguments => exact answer .nodes (orderly_arguments orderly)
  · exact answer .node (orderly_binary orderly left)
  · exact answer .node (orderly_call orderly callee)

section

variable {sub : Precedence → Rule Node} {precedence : Precedence} {rounds : Nat} {left node : Node}
  {cursor reached : Cursor}

/-- Climbing stops where what follows does not bind tighter. -/
theorem climb_ends (orderly : ∀ precedence, Orderly (sub precedence))
    (enough : cursor.ahead.tail.length ≤ rounds)
    (read : outcome (climb sub precedence rounds left) cursor = (.ok node, reached)) :
    reached.nextRank ≤ precedence.rank := by
  induction rounds generalizing left cursor with
  | zero =>
      cases read
      rw [nextRank_of_tail_nil (List.length_eq_zero_iff.mp (Nat.le_zero.mp enough))]
      exact precedence.rank_pos
  | succ rounds ih =>
      by_cases continues : precedence.rank < (Precedence.ofKind cursor.peek.kind).rank
      · rw [climb, outcome_peek_bind, if_pos continues, outcome_advance_bind] at read
        obtain ⟨wider, middle, extended, read⟩ := accepted_bind read
        have shorter : middle.ahead.length ≤ cursor.ahead.tail.length :=
          ((orderly_extend orderly left).follows extended).length_le
        have tail : middle.ahead.tail.length = middle.ahead.length - 1 := List.length_tail
        exact ih (by omega) read
      · rw [climb, outcome_peek_bind, if_neg continues] at read
        cases read
        exact Nat.le_of_not_lt continues

/-- Behind an expression that nothing can continue every precedence stops. -/
theorem climb_lowest (read : outcome (climb sub precedence rounds left) cursor = (.ok node, reached))
    (ends : reached.nextRank ≤ Precedence.lowest.rank) :
    outcome (climb sub .lowest rounds left) cursor = (.ok node, reached) := by
  induction rounds generalizing left cursor with
  | zero => exact read
  | succ rounds ih =>
      by_cases continues : precedence.rank < (Precedence.ofKind cursor.peek.kind).rank
      · have continues' : Precedence.lowest.rank < (Precedence.ofKind cursor.peek.kind).rank :=
          Nat.lt_of_le_of_lt precedence.rank_pos continues
        rw [climb, outcome_peek_bind, if_pos continues, outcome_advance_bind] at read
        obtain ⟨wider, middle, extended, read⟩ := accepted_bind read
        rw [climb, outcome_peek_bind, if_pos continues', outcome_advance_bind,
          outcome_bind_ok extended]
        exact ih read
      · rw [climb, outcome_peek_bind, if_neg continues] at read
        cases read
        exact climb_stops .lowest _ _ ends

theorem operand_starts (read : outcome (operand sub) cursor = (.ok node, reached)) :
    cursor.current.kind ∈ starters := by
  rw [operand, outcome_current_bind] at read
  split at read <;> rename_i kind
  all_goals first
    | rw [kind]; decide
    | cases read

end

section

variable {depth : Nat} {precedence : Precedence} {cursor reached : Cursor} {node : Node}

/-- An expression is an operand and what goes on from it. -/
theorem expression_cases
    (read : outcome (expression depth precedence) cursor = (.ok node, reached)) :
    ∃ below left middle, depth = below + 1 ∧
      outcome (operand (expression below)) cursor = (.ok left, middle) ∧
      outcome (climb (expression below) precedence middle.ahead.length left) middle =
        (.ok node, reached) := by
  cases depth with
  | zero => cases read
  | succ below =>
      rw [expression] at read
      obtain ⟨left, middle, first, read⟩ := accepted_bind read
      exact ⟨below, left, middle, rfl, first, read⟩

theorem expression_stops
    (read : outcome (expression depth precedence) cursor = (.ok node, reached)) :
    (Precedence.ofKind reached.peek.kind).rank ≤ precedence.rank := by
  obtain ⟨below, left, middle, rfl, -, climbed⟩ := expression_cases read
  have tail : middle.ahead.tail.length ≤ middle.ahead.length := by simp
  exact climb_ends (orderly_expression below) tail climbed

theorem expression_lowest
    (read : outcome (expression depth precedence) cursor = (.ok node, reached))
    (last : reached.ahead.tail = []) :
    outcome (expression depth .lowest) cursor = (.ok node, reached) := by
  obtain ⟨below, left, middle, rfl, first, climbed⟩ := expression_cases read
  rw [expression, outcome_bind_ok first, outcome_remaining_bind]
  exact climb_lowest climbed (Nat.le_of_eq (nextRank_of_tail_nil last))

theorem expression_starts
    (read : outcome (expression depth precedence) cursor = (.ok node, reached)) :
    cursor.current.kind ∈ starters := by
  obtain ⟨below, left, middle, rfl, first, -⟩ := expression_cases read
  exact operand_starts first

end

/-- The tokens of an expression, from where it began up to the one it ends with, read alone: they are
one statement with the same expression, and what is wrong in it is reported but for the words for what
follows. -/
structure ReadAlone (depth : Nat) (node : Node) (cursor reached : Cursor) (used : List Token)
    (added alone : List Mistake) : Prop where
  ahead : cursor.ahead = used ++ reached.ahead.tail
  last : used.getLast? = some reached.current
  mistakes : reached.mistakes = cursor.mistakes ++ added
  parsed : readTokens depth used = ⟨.program [.statement cursor.current node], alone⟩
  echoes : List.Forall₂ (Echoes reached.peek.kind) alone added

theorem expression_alone {depth : Nat} {precedence : Precedence} {cursor reached : Cursor}
    {node : Node} (read : outcome (expression depth precedence) cursor = (.ok node, reached)) :
    ∃ used added alone, ReadAlone depth node cursor reached used added alone := by
  obtain ⟨⟨taken, ahead, -, -⟩, present⟩ := taken_expression depth precedence cursor
  rw [read] at ahead present
  have last : reached.ahead = reached.current :: reached.ahead.tail :=
    ahead_eq_cons (present node rfl)
  have split : cursor.ahead = (taken ++ [reached.current]) ++ reached.ahead.tail := by
    rw [List.append_assoc, List.singleton_append, ← last, ahead]
  obtain ⟨token, others, used⟩ :=
    List.exists_cons_of_ne_nil (List.concat_ne_nil reached.current taken)
  have last_used : (token :: others).getLast? = some reached.current := by
    rw [← used]
    exact List.getLast?_concat
  rw [used] at split
  let context : Context := ⟨reached.ahead.tail, cursor.openBlocks, cursor.mistakes⟩
  have start : Alone context (Cursor.start (token :: others)) cursor :=
    ⟨split, List.cons_ne_nil _ _, (Nat.zero_add _).symm, [], (List.append_nil _).symm, .nil⟩
  have first : token = cursor.current := start.current_eq
  have alike := (Shadows.expression depth precedence).alike _ _ start
  rw [read] at alike
  generalize shape : outcome (expression depth precedence) (Cursor.start (token :: others)) = read'
    at alike
  cases alike with
  | past gone =>
      have shorter : reached.ahead.length ≤ reached.ahead.tail.length := gone
      rw [last] at shorter
      exact absurd shorter (Nat.not_succ_le_self _)
  | @same _ stopped _ alone =>
      have ends : stopped.ahead.tail = [] := by
        have single : stopped.ahead ++ reached.ahead.tail =
            [reached.current] ++ reached.ahead.tail := alone.ahead.symm.trans last
        rw [List.append_cancel_right single]
        rfl
      obtain ⟨added, mistakes, echoes⟩ := alone.mistakes
      refine ⟨token :: others, added, stopped.mistakes, split, last_used, mistakes, ?_, echoes⟩
      rw [← first]
      exact readTokens_last (expression_starts shape) (expression_lowest shape ends) ends

/-- What is wrong is reported alike, unless the token that follows is named in a report. -/
theorem echoes_eq {next : Kind} {alone added : List Mistake}
    (echoes : List.Forall₂ (Echoes next) alone added)
    (unnamed : ∀ wanted, .expected wanted next ∉ added) : alone = added := by
  induction echoes with
  | nil => rfl
  | cons first rest ih =>
      have others := ih fun wanted member => unnamed wanted (List.mem_cons_of_mem _ member)
      cases first with
      | same mistake => rw [others]
      | last wanted => exact absurd List.mem_cons_self (unnamed wanted)

theorem Driven.placed {depth : Nat} {tokens : List Token} {cursor : Cursor}
    (driven : Driven depth tokens cursor) : Placed tokens cursor := by
  induction driven with
  | start => exact .start tokens
  | next method driven moved within placed =>
      have kept := places_method tokens depth method _ placed
      rwa [moved] at kept

/-- A cursor that is moved by hand, as long as the levels last. Wherever methods lead it, in any order,
the tokens in view are consecutive ones of the source. A method leaves as many blocks open as there
were, whether it is refused or not, and forgets no mistake. An expression that is read with some
precedence ends where what follows does not bind tighter, and it is what its tokens are read as alone.
The same mistakes are reported then; only where the token that follows is found in place of one that is
wanted, that is the end of the input to the tokens alone. -/
theorem cursor_contract (depth : Nat) (tokens : List Token) :
    (∀ cursor, Driven depth tokens cursor →
      ∃ place, cursor.drawn = place + 2 ∧ cursor.current = tokens.getD place Token.sentinel ∧
        cursor.peek = tokens.getD (place + 1) Token.sentinel) ∧
    (∀ method cursor result reached,
      outcome (Method.rule depth method) cursor = (result, reached) → result ≠ .error .tooDeep →
        reached.openBlocks = cursor.openBlocks ∧ cursor.mistakes <+: reached.mistakes) ∧
    (∀ precedence cursor node reached,
      outcome (expression depth precedence) cursor = (.ok node, reached) →
        (Precedence.ofKind reached.peek.kind).rank ≤ precedence.rank ∧
          ∃ used added alone, ReadAlone depth node cursor reached used added alone ∧
            ((∀ wanted, .expected wanted reached.peek.kind ∉ added) → alone = added)) := by
  refine ⟨?_, ?_, ?_⟩
  · intro cursor driven
    exact driven.placed.consecutive
  · intro method cursor result reached moved within
    have orderly := orderly_method depth method
    exact ⟨orderly.balanced moved within, (orderly.follows moved).mistakes⟩
  · intro precedence cursor node reached read
    obtain ⟨used, added, alone, whole⟩ := expression_alone read
    exact ⟨expression_stops read, used, added, alone, whole, echoes_eq whole.echoes⟩

/-- An expression in the middle of a source, with a mistake inside. -/
theorem cursor_contract_operand :
    let tokens := Token.scan "a + fn() \x7b let = 1; 2 \x7d * 3 == 4".toList
    let cursor := (Cursor.start tokens).advance.advance
    Driven 9 tokens cursor ∧ cursor.current = tokens.getD 2 Token.sentinel ∧
      ∃ node reached, outcome (expression 9 .sum) cursor = (.ok node, reached) ∧
        node.write = .ok "(fn() \x7b 2 \x7d * 3)" ∧
        (Precedence.ofKind reached.peek.kind).rank ≤ 4 ∧
        ∃ used, ReadAlone 9 node cursor reached used [.expected .name .assign]
          [.expected .name .assign] := by
  intro tokens cursor
  obtain ⟨places, -, expressions⟩ := cursor_contract 9 tokens
  have driven : Driven 9 tokens cursor :=
    .next (.called .advance) (.next (.called .advance) .start rfl nofun) rfl nofun
  have written : (outcome (expression 9 .sum) cursor).1.map Node.write =
      .ok (.ok "(fn() \x7b 2 \x7d * 3)") := by
    decide +kernel
  have reported : (outcome (expression 9 .sum) cursor).2.mistakes = [.expected .name .assign] := by
    decide +kernel
  have next : (outcome (expression 9 .sum) cursor).2.peek.kind = .equal := by decide +kernel
  refine ⟨driven, ?_, ?_⟩
  · obtain ⟨place, drawn, current, -⟩ := places cursor driven
    have second : place = 2 := Nat.add_right_cancel drawn.symm
    rwa [second] at current
  · rcases read : outcome (expression 9 .sum) cursor with ⟨refusal | node, reached⟩
    · rw [read] at written
      cases written
    · rw [read] at written reported next
      obtain ⟨bound, used, added, alone, whole, alike⟩ := expressions .sum cursor node reached read
      have same : added = [.expected .name .assign] := whole.mistakes.symm.trans reported
      have unnamed : ∀ wanted, Mistake.expected wanted reached.peek.kind ∉ added := by
        rw [same, next]
        simp
      rw [alike unnamed, same] at whole
      exact ⟨node, reached, rfl, Except.ok.inj written, bound, used, whole⟩

/-- The brace of the inner function is taken for the one that closes the outer function, so that the
expression ends there. What is wrong in it is reported with the brace that follows, and alone with the
end of the input. -/
theorem token_behind_named :
    let tokens := Token.scan "fn() \x7b (fn() \x7b 1 \x7d \x7d".toList
    let used := Token.scan "fn() \x7b (fn() \x7b 1 \x7d".toList
    let read := outcome (expression 9 .lowest) (Cursor.start tokens)
    read.1.toOption.map (Node.program [.statement (Token.fixed .fnWord) ·]) =
        some (readTokens 9 used).program ∧
      read.1.map Node.write = .ok (.ok "fn() \x7b \x7d") ∧
      tokens = used ++ read.2.ahead.tail ∧
      read.2.mistakes.map Mistake.message =
        ["expected next token to be RPAREN, got RBRACE instead"] ∧
      (readTokens 9 used).messages =
        ["expected next token to be RPAREN, got EOF instead"] := by
  decide +kernel

end MonkeyLang.Grammar
