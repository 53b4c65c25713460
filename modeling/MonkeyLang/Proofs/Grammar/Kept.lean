import MonkeyLang.Proofs.Grammar.Derivation
import MonkeyLang.Proofs.Grammar.Progress
import MonkeyLang.Proofs.Token.Lexical

/-!
The tokens of what was read and kept. They are the tokens that were passed, unless something was
wrong with a statement inside, which is left out together with its tokens.
-/

namespace MonkeyLang.Grammar

open Token (Kind)

def Scanned (tokens : List Token) : Prop := ∀ token ∈ tokens, token.Lexical

namespace Scanned

theorem scan (text : List Char) : Scanned (Token.scan text) :=
  fun _ => Token.lexical_of_mem_scan

theorem append {left right : List Token} (first : Scanned left) (second : Scanned right) :
    Scanned (left ++ right) := by
  intro token member
  rcases List.mem_append.mp member with inside | inside
  · exact first token inside
  · exact second token inside

theorem cons {token : Token} {rest : List Token} (second : Scanned rest) (first : token.Lexical) :
    Scanned (token :: rest) := by
  intro other member
  rcases List.mem_cons.mp member with rfl | inside
  · exact first
  · exact second other inside

theorem of_append {left right : List Token} (scanned : Scanned (left ++ right)) :
    Scanned left ∧ Scanned right :=
  ⟨fun token member => scanned token (List.mem_append_left _ member),
    fun token member => scanned token (List.mem_append_right _ member)⟩

theorem of_cons {token : Token} {rest : List Token} (scanned : Scanned (token :: rest)) :
    token.Lexical ∧ Scanned rest :=
  ⟨scanned token List.mem_cons_self,
    fun other member => scanned other (List.mem_cons_of_mem _ member)⟩

theorem nil : Scanned [] := by
  intro token member
  cases member

theorem follows {before after : Cursor} (scanned : Scanned before.ahead)
    (follows : Follows before after) : Scanned after.ahead :=
  fun token member => scanned token (follows.ahead.subset member)

end Scanned

section

variable {cursor : Cursor}

theorem ahead_eq_cons (more : cursor.current.kind ≠ .endOfInput) :
    cursor.ahead = cursor.current :: cursor.ahead.tail := by
  unfold Cursor.current at more ⊢
  cases shape : cursor.ahead with
  | nil =>
      rw [shape] at more
      exact absurd rfl more
  | cons first rest => rfl

theorem tail_eq_cons (more : cursor.peek.kind ≠ .endOfInput) :
    cursor.ahead.tail = cursor.peek :: cursor.ahead.tail.tail :=
  @ahead_eq_cons cursor.advance more

theorem lexical_current (scanned : Scanned cursor.ahead)
    (more : cursor.current.kind ≠ .endOfInput) : cursor.current.Lexical := by
  apply scanned
  rw [ahead_eq_cons more]
  exact List.mem_cons_self

theorem lexical_peek (scanned : Scanned cursor.ahead) (more : cursor.peek.kind ≠ .endOfInput) :
    cursor.peek.Lexical :=
  @lexical_current cursor.advance (scanned.follows (Follows.advance cursor)) more

end

/-- The tokens of a phrase that was read from `before` to `after`. -/
structure Kept (used : List Token) (phrase : Phrase) (before after : List Token) (clean : Prop) :
    Prop where
  derives : Derives used phrase
  scanned : Scanned used
  whole : clean → before = used ++ after

/-- The tokens of an expression that was read from `start`. They begin with the token it began with,
also where statements inside it were left out. -/
structure Grown (used : List Token) (level : Level) (node : Node) (start : List Token)
    (reached : Cursor) : Prop where
  kept : Kept used (.expression level node) start reached.ahead.tail (reached.mistakes = [])
  head : used.head? = start.head?

theorem Kept.loosen {used before after : List Token} {level target : Level} {node : Node}
    {clean : Prop} (kept : Kept used (.expression level node) before after clean)
    (bound : target.rank ≤ level.rank) :
    Kept used (.expression target node) before after clean :=
  ⟨kept.derives.loosen bound, kept.scanned, kept.whole⟩

theorem Kept.grown {used : List Token} {level : Level} {node : Node} {cursor reached : Cursor}
    (kept : Kept used (.expression level node) cursor.ahead reached.ahead.tail
      (reached.mistakes = []))
    (first : used.head? = some cursor.current) (more : cursor.current.kind ≠ .endOfInput) :
    Grown used level node cursor.ahead reached := by
  refine ⟨kept, ?_⟩
  rw [first, ahead_eq_cons more]
  rfl

theorem grown_current {level : Level} {node : Node} {cursor : Cursor}
    (scanned : Scanned cursor.ahead) (more : cursor.current.kind ≠ .endOfInput)
    (derives : Derives [cursor.current] (.expression level node)) :
    Grown [cursor.current] level node cursor.ahead cursor :=
  Kept.grown ⟨derives, Scanned.nil.cons (lexical_current scanned more),
    fun _ => ahead_eq_cons more⟩ rfl more

/-- A statement may or may not be ended by a semicolon. -/
structure Closed (used : List Token) (node : Node) (before after : List Token) (clean : Prop) :
    Prop where
  derives : Derives used (.statement node)
  scanned : Scanned used
  whole : clean →
    (∃ semicolon : Token, semicolon.kind = .semicolon ∧ before = used ++ semicolon :: after) ∨
      (before = used ++ after ∧ Separate after)

/-- A statement goes before other statements, also where what stood between them was left out. -/
theorem Closed.followed {used rest before between after : List Token} {node : Node}
    {nodes : List Node} {whole clean : Prop} (closed : Closed used node before between whole)
    (kept : Kept rest (.statements nodes) between after clean) (earlier : clean → whole)
    (scanned : Scanned before) :
    ∃ used, Kept used (.statements (node :: nodes)) before after clean := by
  by_cases exact : clean
  · have middle := kept.whole exact
    rcases closed.whole (earlier exact) with ⟨semicolon, ends, start⟩ | ⟨start, separate⟩
    · have lexical : semicolon.Lexical := by
        apply scanned
        rw [start]
        exact List.mem_append_right _ List.mem_cons_self
      refine ⟨used ++ semicolon :: rest, .ended ends closed.derives kept.derives,
        closed.scanned.append (kept.scanned.cons lexical), fun _ => ?_⟩
      rw [start, middle, List.append_assoc, List.cons_append]
    · have apart : Separate rest := by
        intro token first
        apply separate
        rw [middle]
        cases rest with
        | nil => cases first
        | cons => exact first
      refine ⟨used ++ rest, .unended apart closed.derives kept.derives,
        closed.scanned.append kept.scanned, fun _ => ?_⟩
      rw [start, middle, List.append_assoc]
  · have lexical : Token.Lexical ⟨.semicolon, ";"⟩ := @Token.Lexical.symbol ';' .semicolon rfl
    exact ⟨used ++ ⟨.semicolon, ";"⟩ :: rest, .ended rfl closed.derives kept.derives,
      closed.scanned.append (kept.scanned.cons lexical), fun holds => absurd holds exact⟩

theorem closed_of_passed {used before : List Token} {node : Node} {stopped reached : Cursor}
    (kept : Kept used (.statement node) before stopped.ahead.tail (stopped.mistakes = []))
    (ends : stopped.nextRank ≤ Precedence.lowest.rank)
    (accepted : outcome passSemicolon stopped = (.ok (), reached)) :
    Closed used node before reached.ahead.tail (reached.mistakes = []) := by
  rw [outcome_passSemicolon] at accepted
  refine ⟨kept.derives, kept.scanned, ?_⟩
  intro clean
  by_cases ended : stopped.peek.kind = .semicolon
  · rw [if_pos ended] at accepted
    cases accepted
    have more : stopped.peek.kind ≠ .endOfInput := by simp [ended]
    refine .inl ⟨stopped.peek, ended, ?_⟩
    rw [kept.whole clean, tail_eq_cons more]
    rfl
  · rw [if_neg ended] at accepted
    cases accepted
    refine .inr ⟨kept.whole clean, ?_⟩
    intro token first
    have next : stopped.peek = token := by
      rw [Cursor.peek, List.headD_eq_head?_getD, Option.mem_def.mp first]
      rfl
    rw [nextRank_eq, next] at ends
    constructor
    · intro minus
      rw [minus] at ends
      exact absurd ends (by decide)
    · intro opens
      rw [opens] at ends
      exact absurd ends (by decide)

end MonkeyLang.Grammar
