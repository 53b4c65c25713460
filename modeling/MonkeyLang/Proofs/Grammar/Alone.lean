import Mathlib.Data.List.Forall2
import MonkeyLang.Proofs.Grammar.Reaching
import MonkeyLang.Proofs.Grammar.Rounds

/-!
The same tokens read alone and in a context, where other tokens follow them. As long as the reading in
the context keeps to these tokens, the two take the same steps (`Shadows.expression`). They can only
tell the end of the input from the first token that follows, and only in the words of a message.
-/

namespace MonkeyLang.Grammar

open Token (Kind)

/-- What is around tokens that are also read alone: the tokens that follow them, the blocks that are
open and the mistakes made before. -/
structure Context where
  following : List Token
  openBlocks : Nat
  earlier : List Mistake

/-- The kind of the token that follows. -/
def Context.next (context : Context) : Kind := (context.following.headD Token.sentinel).kind

/-- A mistake in a reading alone and the same mistake in a context: where the tokens end, the first
one that follows is found in place of the end of the input. -/
inductive Echoes (next : Kind) : Mistake → Mistake → Prop
  | same (mistake : Mistake) : Echoes next mistake mistake
  | last (wanted : Kind) : Echoes next (.expected wanted .endOfInput) (.expected wanted next)

/-- A cursor among some tokens alone, and one at the same place in a context. -/
structure Alone (context : Context) (c c' : Cursor) : Prop where
  ahead : c'.ahead = c.ahead ++ context.following
  nonempty : c.ahead ≠ []
  openBlocks : c'.openBlocks = c.openBlocks + context.openBlocks
  mistakes : ∃ added, c'.mistakes = context.earlier ++ added ∧
    List.Forall₂ (Echoes context.next) c.mistakes added

/-- A cursor in the context has left the tokens behind. -/
def Past (context : Context) (cursor : Cursor) : Prop :=
  cursor.ahead.length ≤ context.following.length

namespace Alone

variable {context : Context} {c c' : Cursor}

theorem current_eq (alone : Alone context c c') : c.current = c'.current := by
  rw [Cursor.current, Cursor.current, alone.ahead]
  cases shape : c.ahead with
  | nil => exact absurd shape alone.nonempty
  | cons token rest => rfl

theorem tail_eq (alone : Alone context c c') :
    c'.ahead.tail = c.ahead.tail ++ context.following := by
  rw [alone.ahead]
  exact List.tail_append_of_ne_nil alone.nonempty

/-- The next token is the same in both readings, or it is the first one that follows. -/
theorem peek_cases (alone : Alone context c c') :
    (c.ahead.tail ≠ [] ∧ c.peek = c'.peek) ∨
      (c.ahead.tail = [] ∧ c.peek.kind = .endOfInput ∧ c'.peek.kind = context.next) := by
  have tail := alone.tail_eq
  simp only [Cursor.peek, tail]
  cases c.ahead.tail with
  | nil => exact .inr ⟨rfl, rfl, rfl⟩
  | cons token rest => exact .inl ⟨List.cons_ne_nil _ _, rfl⟩

theorem length_le (alone : Alone context c c') : c.ahead.length ≤ c'.ahead.length := by
  rw [alone.ahead, List.length_append]
  exact Nat.le_add_right _ _

theorem past_tail (alone : Alone context c c') (last : c.ahead.tail = []) :
    c'.ahead.tail.length ≤ context.following.length := by
  rw [alone.tail_eq, last]
  exact Nat.le_refl _

theorem advance (alone : Alone context c c') (more : c.ahead.tail ≠ []) :
    Alone context c.advance c'.advance :=
  ⟨alone.tail_eq, more, alone.openBlocks, alone.mistakes⟩

theorem advance_cases (alone : Alone context c c') :
    Past context c'.advance ∨ Alone context c.advance c'.advance := by
  by_cases last : c.ahead.tail = []
  · exact .inl (alone.past_tail last)
  · exact .inr (alone.advance last)

theorem recordEcho (alone : Alone context c c') {mistake mistake' : Mistake}
    (echoes : Echoes context.next mistake mistake') :
    Alone context (c.record mistake) (c'.record mistake') := by
  obtain ⟨added, shape, related⟩ := alone.mistakes
  refine ⟨alone.ahead, alone.nonempty, alone.openBlocks, added ++ [mistake'], ?_,
    List.rel_append related (.cons echoes .nil)⟩
  change c'.mistakes ++ [mistake'] = _
  rw [shape, List.append_assoc]

theorem openBlock (alone : Alone context c c') : Alone context c.openBlock c'.openBlock := by
  refine ⟨alone.ahead, alone.nonempty, ?_, alone.mistakes⟩
  change c'.openBlocks + 1 = c.openBlocks + 1 + context.openBlocks
  rw [alone.openBlocks, Nat.add_right_comm]

theorem closeBlock (alone : Alone context c c') (inside : 0 < c.openBlocks) :
    Alone context c.closeBlock c'.closeBlock := by
  refine ⟨alone.ahead, alone.nonempty, ?_, alone.mistakes⟩
  change c'.openBlocks - 1 = c.openBlocks - 1 + context.openBlocks
  rw [alone.openBlocks]
  omega

end Alone

/-- What is passed over of tokens, if that ends before they do, is passed over of them alone. -/
theorem leftover_alone {enclosed : Bool} {braces : Nat} {tokens following : List Token}
    (inside : leftover enclosed braces (tokens ++ following) < tokens.length) :
    leftover enclosed braces tokens = leftover enclosed braces (tokens ++ following) := by
  induction tokens generalizing braces with
  | nil => exact absurd inside (Nat.not_lt_zero _)
  | cons token rest ih =>
      have onward {braces' : Nat}
          (shorter : leftover enclosed braces' (rest ++ following) + 1 < rest.length + 1) :
          leftover enclosed braces' rest + 1 = leftover enclosed braces' (rest ++ following) + 1 :=
        congrArg (· + 1) (ih (Nat.lt_of_succ_lt_succ shorter))
      rw [List.cons_append] at inside ⊢
      unfold leftover at inside ⊢
      split at inside
      · rfl
      · exact onward inside
      · split at inside
        · rw [if_pos ‹_›, if_pos ‹_›]
        · rw [if_neg ‹_›, if_neg ‹_›]
          exact onward inside
      · split at inside
        · rw [if_pos ‹_›, if_pos ‹_›]
        · rw [if_neg ‹_›, if_neg ‹_›]
          exact onward inside
      · exact onward inside

theorem Alone.drop {context : Context} {c c' : Cursor} (alone : Alone context c c')
    (inside : 0 < c.openBlocks) : Past context c'.drop ∨ Alone context c.drop c'.drop := by
  have enclosed : decide (0 < c.openBlocks) = true := decide_eq_true inside
  have enclosed' : decide (0 < c'.openBlocks) = true := by
    apply decide_eq_true
    rw [alone.openBlocks]
    omega
  have left : c.drop.ahead = c.ahead.drop (leftover true 0 c.ahead) := by
    rw [← enclosed]
    rfl
  have left' : c'.drop.ahead = c'.ahead.drop (leftover true 0 c'.ahead) := by
    rw [← enclosed']
    rfl
  by_cases shorter : leftover true 0 c'.ahead < c.ahead.length
  · rw [alone.ahead] at shorter
    have same := leftover_alone shorter
    rw [← same] at shorter
    refine .inr ⟨?_, ?_, alone.openBlocks, alone.mistakes⟩
    · rw [left', left, alone.ahead, ← same]
      exact List.drop_append_of_le_length (Nat.le_of_lt shorter)
    · rw [left]
      intro empty
      exact absurd (List.drop_eq_nil_iff.mp empty) (Nat.not_le.mpr shorter)
  · refine .inl ?_
    rw [Past, left', List.length_drop]
    rw [alone.ahead] at shorter ⊢
    rw [List.length_append]
    omega

/-- Two readings come to the same as long as the one in the context keeps to the tokens. -/
inductive Alike (context : Context) {α : Type} :
    Except Refusal α × Cursor → Except Refusal α × Cursor → Prop
  | past {read read' : Except Refusal α × Cursor} (gone : Past context read'.2) :
      Alike context read read'
  | same (result : Except Refusal α) {c c' : Cursor} (alone : Alone context c c') :
      Alike context (result, c) (result, c')

theorem reached_map {α β : Type} (change : α → β) (rule : Rule α) (cursor : Cursor) :
    (outcome (change <$> rule) cursor).2 = (outcome rule cursor).2 := by
  rw [outcome_map]
  rcases outcome rule cursor with ⟨refusal | value, reached⟩
  · rfl
  · rfl

theorem Alike.map {context : Context} {α β : Type} {change : α → β} {rule : Rule α} {c c' : Cursor}
    (alike : Alike context (outcome rule c) (outcome rule c')) :
    Alike context (outcome (change <$> rule) c) (outcome (change <$> rule) c') := by
  have reached := reached_map change rule c'
  rw [outcome_map, outcome_map] at *
  generalize outcome rule c = read at alike
  generalize outcome rule c' = read' at alike reached
  cases alike with
  | past gone => exact .past (reached ▸ gone)
  | same result alone =>
      cases result with
      | error refusal => exact .same _ alone
      | ok value => exact .same _ alone

/-- A rule takes tokens only and comes to the same alone and in a context. -/
structure Shadows (context : Context) {α : Type} (rule : Rule α) : Prop where
  shortens : ∀ cursor, (outcome rule cursor).2.ahead.length ≤ cursor.ahead.length
  alike : ∀ c c', Alone context c c' → Alike context (outcome rule c) (outcome rule c')

namespace Shadows

variable {context : Context} {α β : Type}

theorem past {rule : Rule α} (shadows : Shadows context rule) {cursor : Cursor}
    (gone : Past context cursor) : Past context (outcome rule cursor).2 :=
  Nat.le_trans (shadows.shortens cursor) gone

theorem pure (value : α) : Shadows context (pure value : Rule α) :=
  ⟨fun _ => Nat.le_refl _, fun _ _ alone => .same (.ok value) alone⟩

theorem tooDeep : Shadows context (throw .tooDeep : Rule α) :=
  ⟨fun _ => Nat.le_refl _, fun _ _ alone => .same (.error .tooDeep) alone⟩

theorem refuse (mistake : Mistake) : Shadows context (refuse mistake : Rule α) :=
  ⟨fun _ => Nat.le_refl _, fun _ _ alone => .same (.error .malformed) (alone.recordEcho (.same _))⟩

theorem advance : Shadows context advance where
  shortens cursor := (Follows.advance cursor).length_le
  alike c c' alone := by
    rcases alone.advance_cases with gone | alone'
    · exact .past gone
    · exact .same (.ok ()) alone'

theorem bind {rule : Rule α} {next : α → Rule β} (first : Shadows context rule)
    (second : ∀ value, Shadows context (next value)) : Shadows context (rule >>= next) where
  shortens cursor := by
    have shorter := first.shortens cursor
    rw [outcome_bind]
    generalize outcome rule cursor = half at shorter ⊢
    rcases half with ⟨refusal | value, reached⟩
    · exact shorter
    · exact Nat.le_trans ((second value).shortens reached) shorter
  alike c c' alone := by
    have halves := first.alike c c' alone
    rw [outcome_bind, outcome_bind]
    generalize outcome rule c = half at halves ⊢
    generalize outcome rule c' = half' at halves ⊢
    cases halves with
    | past gone =>
        refine .past ?_
        rcases half' with ⟨refusal | value, reached⟩
        · exact gone
        · exact (second value).past gone
    | same result alone' =>
        cases result with
        | error refusal => exact .same _ alone'
        | ok value => exact (second value).alike _ _ alone'

theorem current {next : Token → Rule β} (shadows : ∀ token, Shadows context (next token)) :
    Shadows context (current >>= next) where
  shortens cursor := (shadows cursor.current).shortens cursor
  alike c c' alone := by
    rw [outcome_current_bind, outcome_current_bind, alone.current_eq]
    exact (shadows _).alike c c' alone

theorem ite {condition : Prop} [Decidable condition] {yes no : Rule α}
    (first : Shadows context yes) (second : Shadows context no) :
    Shadows context (if condition then yes else no) := by
  split
  · exact first
  · exact second

/-- A rule that looks at the next token. If it goes on with that token it leaves the tokens behind
where they end, and alone it does not go on there. -/
theorem peek (test : Kind → Prop) [DecidablePred test] {yes no : Rule α} (absent : ¬test .endOfInput)
    (takes : ∀ cursor, (outcome yes cursor).2.ahead.length ≤ cursor.ahead.tail.length)
    (first : Shadows context yes) (second : Shadows context no) :
    Shadows context (peek >>= fun next => if test next.kind then yes else no) where
  shortens cursor := by
    rw [outcome_peek_bind]
    split
    · exact first.shortens cursor
    · exact second.shortens cursor
  alike c c' alone := by
    rw [outcome_peek_bind, outcome_peek_bind]
    rcases alone.peek_cases with ⟨_, same⟩ | ⟨last, ends, _⟩
    · rw [same]
      exact (ite first second).alike c c' alone
    · rw [if_neg (by rwa [ends])]
      split
      · exact .past (Nat.le_trans (takes c') (alone.past_tail last))
      · exact second.alike c c' alone

theorem takes_advance {next : Unit → Rule β} (second : ∀ value, Shadows context (next value))
    (cursor : Cursor) :
    (outcome (Grammar.advance >>= next) cursor).2.ahead.length ≤ cursor.ahead.tail.length :=
  (second ()).shortens cursor.advance

theorem expect (kind : Kind) (present : kind ≠ .endOfInput) : Shadows context (expect kind) where
  shortens cursor := ((orderly_expect kind).follows rfl).length_le
  alike c c' alone := by
    rw [outcome_expect, outcome_expect]
    rcases alone.peek_cases with ⟨more, same⟩ | ⟨last, ends, next⟩
    · rw [same]
      split
      · exact .same _ (alone.advance more)
      · exact .same _ (alone.recordEcho (.same _))
    · rw [if_neg (by rw [ends]; exact present.symm), ends]
      split
      · exact .past (alone.past_tail last)
      · rw [next]
        exact .same _ (alone.recordEcho (.last kind))

theorem passSemicolon : Shadows context passSemicolon :=
  peek (· = .semicolon) nofun (fun _ => Nat.le_of_eq rfl) advance (pure ())

theorem identifier : Shadows context identifier := current fun _ => pure _

theorem number : Shadows context number := by
  apply current
  intro token
  split
  · exact pure _
  · exact refuse _

theorem truth : Shadows context truth := current fun _ => pure _

/-- As many rounds as there are tokens in the context are as good as any greater number. -/
theorem remaining {next : Nat → Rule β}
    (enough : ∀ (cursor : Cursor) (rounds : Nat), cursor.ahead.length ≤ rounds →
      outcome (next cursor.ahead.length) cursor = outcome (next rounds) cursor)
    (shadows : ∀ rounds, Shadows context (next rounds)) :
    Shadows context (remaining >>= next) where
  shortens cursor := (shadows cursor.ahead.length).shortens cursor
  alike c c' alone := by
    rw [outcome_remaining_bind, outcome_remaining_bind, enough c c'.ahead.length alone.length_le]
    exact (shadows _).alike c c' alone

theorem itemsAfter {item : Rule α} (shadows : Shadows context item) (rounds : Nat) :
    Shadows context (itemsAfter item rounds) := by
  induction rounds with
  | zero => exact pure _
  | succ rounds ih =>
      have taken : ∀ _ : Unit, Shadows context (do
          let first ← item
          let rest ← Grammar.itemsAfter item rounds
          Pure.pure (first :: rest)) := by
        intro _
        apply bind shadows
        intro first
        exact bind ih fun rest => pure _
      exact peek (· = .comma) nofun (takes_advance taken) (bind advance taken) (pure [])

theorem listed {item : Rule α} (orderly : Orderly item) (shadows : Shadows context item) :
    Shadows context (listed item) := by
  have empty : ∀ _ : Unit, Shadows context (Pure.pure [] : Rule (List α)) := fun _ => pure []
  apply peek (· = .closeParen) nofun (takes_advance empty) (bind advance empty)
  apply bind shadows
  intro first
  apply remaining
  · intro cursor rounds bound
    have tail : cursor.ahead.tail.length ≤ cursor.ahead.length := by simp
    rw [outcome_bind, outcome_bind, itemsAfter_enough orderly tail (Nat.le_trans tail bound)]
  · intro rounds
    apply bind (itemsAfter shadows rounds)
    intro rest
    exact bind (expect .closeParen nofun) fun _ => pure _

theorem parameters : Shadows context parameters := by
  apply listed (orderly_bind (orderly_expect _) fun _ => orderly_identifier)
  exact bind (expect .name nofun) fun _ => identifier

section

variable {sub : Precedence → Rule Node} (orderly : ∀ precedence, Orderly (sub precedence))
  (level : ∀ precedence, Shadows context (sub precedence))
include level

theorem letStatement : Shadows context (letStatement sub) := by
  apply current
  intro token
  apply bind (expect .name nofun)
  intro _
  apply bind identifier
  intro target
  apply bind (expect .assign nofun)
  intro _
  apply bind advance
  intro _
  apply bind (level .lowest)
  intro value
  exact bind passSemicolon fun _ => pure _

theorem returnStatement : Shadows context (returnStatement sub) := by
  apply current
  intro token
  apply bind advance
  intro _
  apply bind (level .lowest)
  intro value
  exact bind passSemicolon fun _ => pure _

theorem expressionStatement : Shadows context (expressionStatement sub) := by
  apply current
  intro token
  apply bind (level .lowest)
  intro expression
  exact bind passSemicolon fun _ => pure _

theorem statement : Shadows context (statement sub) := by
  apply current
  intro token
  split
  · exact letStatement level
  · exact returnStatement level
  · exact expressionStatement level

theorem unary : Shadows context (unary sub) := by
  apply current
  intro token
  apply bind advance
  intro _
  exact bind (level .unary) fun operand => pure _

theorem grouped : Shadows context (grouped sub) := by
  apply bind advance
  intro _
  apply bind (level .lowest)
  intro inner
  exact bind (expect .closeParen nofun) fun _ => pure _

theorem binary (left : Node) : Shadows context (binary sub left) := by
  apply current
  intro token
  apply bind advance
  intro _
  exact bind (level _) fun right => pure _

include orderly

theorem arguments : Shadows context (arguments sub) := by
  apply listed (orderly_bind orderly_advance fun _ => orderly .lowest)
  exact bind advance fun _ => level .lowest

/-- Statements inside a block, where a malformed one is left behind in the same way. -/
theorem statementsFor_alike (rounds : Nat) {c c' : Cursor} (alone : Alone context c c')
    (inside : 0 < c.openBlocks) :
    Alike context (outcome (statementsFor sub .closeBrace rounds) c)
      (outcome (statementsFor sub .closeBrace rounds) c') := by
  have shorter (rounds : Nat) (cursor : Cursor) :
      (outcome (statementsFor sub .closeBrace rounds) cursor).2.ahead.length ≤
        cursor.ahead.length :=
    ((orderly_statementsFor orderly _ rounds).follows rfl).length_le
  induction rounds generalizing c c' with
  | zero => exact .same _ alone
  | succ rounds ih =>
      -- Once the reading in the context has left the tokens it does not come back to them.
      have onward {d d' : Cursor} (goes : Past context d' ∨ Alone context d d')
          (deep : 0 < d.openBlocks) :
          Alike context (outcome (statementsFor sub .closeBrace rounds) d)
            (outcome (statementsFor sub .closeBrace rounds) d') := by
        rcases goes with gone | alone'
        · exact .past (Nat.le_trans (shorter rounds d') gone)
        · exact ih alone' deep
      have same := alone.current_eq
      by_cases ends : c.current.kind = .closeBrace ∨ c.current.kind = .endOfInput
      · rw [statementsFor_stops _ _ ends, statementsFor_stops _ _ (same ▸ ends)]
        exact .same _ alone
      · have inside' : c'.openBlocks ≠ 0 := by
          rw [alone.openBlocks]
          omega
        rw [statementsFor_continues _ _ ends, statementsFor_continues _ _ (same ▸ ends),
          outcome_attempt, outcome_attempt]
        simp only [Nat.ne_of_gt inside, inside', if_false]
        have balanced : ∀ {result reached}, outcome (Grammar.statement sub) c = (result, reached) →
            result ≠ .error .tooDeep → 0 < reached.openBlocks := by
          intro result reached read allowed
          rwa [(orderly_statement orderly).balanced read allowed]
        have halves := (statement level).alike c c' alone
        generalize outcome (Grammar.statement sub) c = half at halves balanced
        generalize outcome (Grammar.statement sub) c' = half' at halves
        cases halves with
        | past gone =>
            refine .past ?_
            rcases half' with ⟨(_ | _) | node, reached⟩
            · exact Nat.le_trans (shorter rounds _) (Nat.le_trans (length_drop_le reached) gone)
            · exact gone
            · have passed := (Follows.advance reached).length_le
              rw [reached_map]
              exact Nat.le_trans (shorter rounds _) (Nat.le_trans passed gone)
        | same result alone' =>
            rcases result with (_ | _) | node
            · have deep := balanced rfl fun wrong => by cases wrong
              exact onward (alone'.drop deep) deep
            · exact .same _ alone'
            · have deep := balanced rfl fun wrong => by cases wrong
              exact (onward alone'.advance_cases deep).map

theorem statements_alike {c c' : Cursor} (alone : Alone context c c') (inside : 0 < c.openBlocks) :
    Alike context (outcome (statements sub .closeBrace) c)
      (outcome (statements sub .closeBrace) c') := by
  rw [statements, outcome_remaining_bind, outcome_remaining_bind,
    statementsFor_enough orderly (.inl rfl) (Nat.le_refl _) alone.length_le]
  exact statementsFor_alike orderly level _ alone inside

theorem block : Shadows context (block sub) where
  shortens cursor := ((orderly_block orderly).follows rfl).length_le
  alike c c' alone := by
    have shorter : (outcome (statements sub .closeBrace) c'.advance.openBlock).2.ahead.length ≤
        c'.advance.ahead.length :=
      ((orderly_statements orderly .closeBrace).follows rfl).length_le
    have inside : 0 < c.advance.openBlock.openBlocks := Nat.succ_pos _
    have balanced : ∀ {nodes reached},
        outcome (statements sub .closeBrace) c.advance.openBlock = (.ok nodes, reached) →
          0 < reached.openBlocks := by
      intro nodes reached read
      rwa [(orderly_statements orderly _).balanced read fun wrong => by cases wrong]
    have halves : Alike context (outcome (statements sub .closeBrace) c.advance.openBlock)
        (outcome (statements sub .closeBrace) c'.advance.openBlock) := by
      rcases alone.advance_cases with gone | entered
      · exact .past (Nat.le_trans shorter gone)
      · exact statements_alike orderly level entered.openBlock inside
    rw [outcome_block, outcome_block, alone.current_eq]
    generalize outcome (statements sub .closeBrace) c.advance.openBlock = half at halves balanced
    generalize outcome (statements sub .closeBrace) c'.advance.openBlock = half' at halves
    cases halves with
    | past gone =>
        refine .past ?_
        rcases half' with ⟨refusal | nodes, last⟩
        · exact gone
        · dsimp only
          split
          · exact gone
          · exact gone
    | same result alone' =>
        cases result with
        | error refusal => exact .same _ alone'
        | ok nodes =>
            have closed := alone'.closeBlock (balanced rfl)
            simp only [← alone'.current_eq]
            split
            · exact .same _ closed
            · exact .same _ (closed.recordEcho (.same _))

theorem conditional : Shadows context (conditional sub) := by
  apply current
  intro token
  apply bind (expect .openParen nofun)
  intro _
  apply bind advance
  intro _
  apply bind (level .lowest)
  intro condition
  apply bind (expect .closeParen nofun)
  intro _
  apply bind (expect .openBrace nofun)
  intro _
  apply bind (block orderly level)
  intro consequence
  have other : ∀ _ : Unit, Shadows context (do
      Grammar.expect .openBrace
      let alternative ← Grammar.block sub
      Pure.pure (Node.conditional token condition consequence alternative)) := by
    intro _
    apply bind (expect .openBrace nofun)
    intro _
    exact bind (block orderly level) fun alternative => pure _
  exact peek (· = .elseWord) nofun (takes_advance other) (bind advance other) (pure _)

theorem function : Shadows context (function sub) := by
  apply current
  intro token
  apply bind (expect .openParen nofun)
  intro _
  apply bind parameters
  intro names
  apply bind (expect .openBrace nofun)
  intro _
  exact bind (block orderly level) fun body => pure _

theorem operand : Shadows context (operand sub) := by
  apply current
  intro token
  split
  · exact bind identifier fun _ => pure _
  · exact number
  · exact truth
  · exact truth
  · exact unary level
  · exact unary level
  · exact grouped level
  · exact conditional orderly level
  · exact function orderly level
  · exact refuse _

theorem call (callee : Node) : Shadows context (call sub callee) := by
  apply current
  intro opening
  exact bind (arguments orderly level) fun given => pure _

theorem extend (left : Node) : Shadows context (extend sub left) := by
  apply current
  intro token
  exact ite (call orderly level left) (binary level left)

theorem climb (precedence : Precedence) (rounds : Nat) (left : Node) :
    Shadows context (climb sub precedence rounds left) := by
  induction rounds generalizing left with
  | zero => exact pure left
  | succ rounds ih =>
      have ends : ¬precedence.rank < (Precedence.ofKind .endOfInput).rank :=
        Nat.not_lt.mpr precedence.rank_pos
      have wider : ∀ _ : Unit, Shadows context (do
          let wider ← Grammar.extend sub left
          Grammar.climb sub precedence rounds wider) := by
        intro _
        exact bind (extend orderly level left) ih
      exact peek (fun kind => precedence.rank < (Precedence.ofKind kind).rank) ends (takes_advance wider)
        (bind advance wider) (pure left)

end

theorem expression (depth : Nat) (precedence : Precedence) :
    Shadows context (expression depth precedence) := by
  induction depth generalizing precedence with
  | zero => exact tooDeep
  | succ depth ih =>
      have orderly := orderly_expression depth
      apply bind (operand orderly ih)
      intro left
      apply remaining
      · intro cursor rounds bound
        have tail : cursor.ahead.tail.length ≤ cursor.ahead.length := by simp
        exact climb_enough orderly precedence left tail (Nat.le_trans tail bound)
      · exact fun rounds => climb orderly ih precedence rounds left

end Shadows

end MonkeyLang.Grammar
