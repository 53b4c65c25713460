import MonkeyLang.Proofs.Grammar.Balance
import MonkeyLang.Proofs.Grammar.Soundness

/-!
A mistake does not reach out of the text it is in. Where the braces of a text are balanced and its
last token is a semicolon, reading more text behind it gives the statements and the mistakes of both,
one after the other (`readText_append`).
-/

namespace MonkeyLang.Grammar

open Token (Kind)

/-- Two readings between statements. In the first one no block is open, in the second one as many as
there are around it. -/
structure Between (following : List Token) (around : Nat) (earlier : List Mistake) (c c' : Cursor) :
    Prop where
  beside : Beside following around earlier c c'
  outermost : c.openBlocks = 0
  settled : following = [] ∨ Settled 0 c.ahead

namespace Between

variable {following : List Token} {around : Nat} {earlier : List Mistake} {c c' : Cursor}

theorem current_eq (between : Between following around earlier c c') (nonempty : c.ahead ≠ []) :
    c.current = c'.current :=
  between.beside.current (.inr nonempty)

theorem openBlocks_eq (between : Between following around earlier c c') : c'.openBlocks = around := by
  rw [between.beside.openBlocks, between.outermost, Nat.zero_add]

/-- The next statement is read alike. -/
theorem statement (between : Between following around earlier c c') (nonempty : c.ahead ≠ [])
    (depth : Nat) :
    (besides following around earlier).Matches (besides following around earlier).ended
      (outcome (statement (expression depth)) c) (outcome (Grammar.statement (expression depth)) c') := by
  have steps := besides_steps following around earlier
  apply Pairing.carries_statement steps (Pairing.carries_expression steps depth)
  refine ⟨between.beside, between.settled.imp_right fun settled => ⟨nonempty, ?_⟩⟩
  rwa [between.outermost]

/-- Unless no level is left, no block stays open behind a statement. -/
theorem balanced (between : Between following around earlier c c') (depth : Nat) :
    ∀ result reached, outcome (Grammar.statement (expression depth)) c = (result, reached) →
      result ≠ .error .tooDeep → reached.openBlocks = 0 := by
  intro result reached read allowed
  have orderly := orderly_statement (orderly_expression depth)
  rw [orderly.balanced read allowed, between.outermost]

theorem onward (related : (besides following around earlier).ended c c')
    (outermost : c.openBlocks = 0) : Between following around earlier c.advance c'.advance := by
  obtain ⟨beside, sheltered⟩ := related
  refine ⟨beside.advance (sheltered.imp_right And.left), outermost, ?_⟩
  rw [← outermost]
  exact sheltered.imp_right And.right

end Between

section

variable {following : List Token} {earlier : List Mistake} {c c' : Cursor}

/-- One round of both readings outside all blocks: a statement is kept by both, or left out by
both. -/
theorem attempt_between (depth : Nat) (between : Between following 0 earlier c c')
    (nonempty : c.ahead ≠ []) :
    ∃ attempted reached reached',
      outcome (attempt (expression depth)) c = (.ok attempted, reached) ∧
        outcome (attempt (expression depth)) c' = (.ok attempted, reached') ∧
        match attempted with
        | none => Between following 0 earlier reached reached'
        | some _ => Between following 0 earlier reached.advance reached'.advance := by
  have matched := between.statement nonempty depth
  have balanced := between.balanced depth
  rw [outcome_attempt, outcome_attempt]
  simp only [between.outermost, between.openBlocks_eq, if_true]
  generalize outcome (statement (expression depth)) c = half at matched balanced
  generalize outcome (statement (expression depth)) c' = half' at matched
  cases matched with
  | accepted node related =>
      have outside := balanced _ _ rfl fun wrong => by cases wrong
      exact ⟨some node, _, _, rfl, rfl, .onward related outside⟩
  | @refused d d' related =>
      have outside := balanced _ _ rfl fun wrong => by cases wrong
      obtain ⟨beside, sheltered⟩ := related
      have alike : 0 < d'.openBlocks ↔ 0 < d.openBlocks := by rw [beside.openBlocks]; rfl
      obtain ⟨left, settled⟩ := beside.drop_settled alike sheltered
      refine ⟨none, _, _, rfl, rfl, left, outside, settled.imp_right fun settled => ?_⟩
      exact settled.mono (Nat.zero_le _)
  | @cut d d' related =>
      obtain ⟨beside, sheltered⟩ := related
      have recorded := beside.record .tooDeep
      have closed : Beside following 0 earlier (d.record .tooDeep).closeAllBlocks
          (d'.record .tooDeep).closeAllBlocks := ⟨recorded.ahead, rfl, recorded.mistakes⟩
      obtain ⟨left, settled⟩ := closed.drop_settled Iff.rfl sheltered
      exact ⟨none, _, _, rfl, rfl, left, rfl, settled⟩

/-- The statements before what follows are read alike, and the second reading goes on with what
follows. -/
theorem statementsFor_between (depth rounds : Nat) {c c' : Cursor}
    (between : Between following 0 earlier c c')
    (present : ∀ token ∈ c.ahead, token.kind ≠ .endOfInput)
    (enough : c'.ahead.length ≤ rounds) :
    ∃ nodes last last' left,
      outcome (statementsFor (expression depth) .endOfInput rounds) c = (.ok nodes, last) ∧
        Between following 0 earlier last last' ∧ last.ahead = [] ∧ following.length ≤ left ∧
        outcome (statementsFor (expression depth) .endOfInput rounds) c' =
          outcome ((nodes ++ ·) <$> statementsFor (expression depth) .endOfInput left) last' := by
  have orderly := orderly_expression depth
  induction rounds generalizing c c' with
  | zero =>
      have none_ahead : c.ahead ++ following = [] := by
        rw [← between.beside.ahead]
        exact List.length_eq_zero_iff.mp (Nat.le_zero.mp enough)
      obtain ⟨empty, rfl⟩ := List.append_eq_nil_iff.mp none_ahead
      exact ⟨[], c, c', 0, rfl, between, empty, Nat.le_refl 0, rfl⟩
  | succ rounds ih =>
      by_cases empty : c.ahead = []
      · have ends : c.current.kind = .endOfInput := by rw [Cursor.current, empty]; rfl
        refine ⟨[], c, c', rounds + 1, statementsFor_stops _ _ (.inr ends), between, empty, ?_, ?_⟩
        · rwa [between.beside.ahead, empty] at enough
        · change _ = outcome (id <$> _) c'
          rw [id_map]
      have same := between.current_eq empty
      have more : c.current.kind ≠ .endOfInput := by
        apply present
        rw [ahead_eq_of_ne_nil empty]
        exact List.mem_cons_self
      have more' : c'.current.kind ≠ .endOfInput := by rwa [← same]
      rw [statementsFor_continues _ _ (by simpa using more),
        statementsFor_continues _ _ (by simpa using more')]
      obtain ⟨attempted, reached, reached', read, read', later⟩ :=
        attempt_between depth between empty
      have follows := (orderly_attempt orderly).follows read
      rw [read, read']
      cases attempted with
      | none =>
          have shorter := attempt_none_shortens orderly read' more' fun _ => between.openBlocks_eq
          exact ih later (fun token member => present token (follows.ahead.mem member)) (by omega)
      | some first =>
          have follows' := ((orderly_attempt orderly).follows read').length_le
          have passed : reached'.advance.ahead.length = reached'.ahead.length - 1 := List.length_tail
          have present' : ∀ token ∈ reached.advance.ahead, token.kind ≠ .endOfInput :=
            fun token member => present token (follows.ahead.mem (List.mem_of_mem_tail member))
          obtain ⟨nodes, last, last', left, whole, between', finished, bound, whole'⟩ :=
            ih later present' (by omega)
          refine ⟨first :: nodes, last, last', left, ?_, between', finished, bound, ?_⟩
          · simp only [outcome_map, whole]
          · simp only [outcome_map, whole']
            rcases outcome (statementsFor (expression depth) .endOfInput left) last' with
              ⟨refusal | rest, finish⟩ <;> rfl

end

/-- What was wrong before makes no difference to what is read from a cursor on. -/
theorem statementsFor_behind (depth rounds : Nat) {earlier : List Mistake} {c c' : Cursor}
    (between : Between [] 0 earlier c c')
    (present : ∀ token ∈ c.ahead, token.kind ≠ .endOfInput)
    (enough : c'.ahead.length ≤ rounds) :
    ∃ nodes last last',
      outcome (statementsFor (expression depth) .endOfInput rounds) c = (.ok nodes, last) ∧
        outcome (statementsFor (expression depth) .endOfInput rounds) c' = (.ok nodes, last') ∧
        last'.mistakes = earlier ++ last.mistakes := by
  obtain ⟨nodes, last, last', left, read, between', finished, _, read'⟩ :=
    statementsFor_between depth rounds between present enough
  have ends : last'.current.kind = .endOfInput := by
    rw [Cursor.current, between'.beside.ahead, finished]
    rfl
  rw [outcome_map, statementsFor_stops _ _ (.inr ends)] at read'
  refine ⟨nodes, last, last', read, ?_, between'.beside.mistakes⟩
  simpa using read'

/-- Settled tokens are read alike whatever follows them. -/
theorem readTokens_append (depth : Nat) {first second : List Token} (settled : Settled 0 first)
    (present : ∀ token ∈ second, token.kind ≠ .endOfInput) :
    ∃ nodes nodes' mistakes mistakes',
      readTokens depth first = ⟨.program nodes, mistakes⟩ ∧
        readTokens depth second = ⟨.program nodes', mistakes'⟩ ∧
        readTokens depth (first ++ second) = ⟨.program (nodes ++ nodes'), mistakes ++ mistakes'⟩ := by
  have orderly := orderly_expression depth
  have started : Between second 0 [] (Cursor.start first) (Cursor.start (first ++ second)) :=
    ⟨⟨rfl, rfl, rfl⟩, rfl, .inr settled⟩
  obtain ⟨nodes, last, last', left, read, between, finished, bound, onward⟩ :=
    statementsFor_between depth (first ++ second).length started settled.present (Nat.le_refl _)
  have resumed : Between [] 0 last.mistakes (Cursor.start second) last' := by
    refine ⟨⟨?_, ?_, ?_⟩, rfl, .inl rfl⟩
    · rw [between.beside.ahead, finished]
      exact (List.append_nil second).symm
    · rw [between.openBlocks_eq]
      rfl
    · rw [between.beside.mistakes]
      exact (List.append_nil last.mistakes).symm
  have bound' : last'.ahead.length ≤ left := by rwa [between.beside.ahead, finished]
  obtain ⟨nodes', finish, finish', read', read_behind, mistakes⟩ :=
    statementsFor_behind depth left resumed present bound'
  have enough : (Cursor.start first).ahead.length ≤ (first ++ second).length := by
    rw [List.length_append]
    exact Nat.le_add_right _ _
  rw [statementsFor_enough orderly (.inr rfl) enough (Nat.le_refl first.length)] at read
  rw [statementsFor_enough orderly (.inr rfl) bound (Nat.le_refl second.length)] at read'
  simp only [outcome_map, read_behind] at onward
  refine ⟨nodes, nodes', last.mistakes, finish.mistakes, readTokens_eq read, readTokens_eq read', ?_⟩
  rw [← mistakes]
  exact readTokens_eq onward

end MonkeyLang.Grammar
