import MonkeyLang.Grammar
import MonkeyLang.Proofs.Grammar.Kept

/-!
What is read derives. Each rule is taken on its own: if it gives a tree, some tokens derive that
tree, and these are the tokens between the start of the rule and its end unless something was wrong
with a statement inside. Where statements were left out, the tokens of those that were kept derive.
-/

namespace MonkeyLang.Grammar

open Token (Kind)

/-- What a rule for the items of a list in parentheses reads, and how a list of them derives. -/
structure Listing {α : Type} (item : List Token → α → Prop) (further whole : List α → Phrase) :
    Prop where
  last : Derives [] (further [])
  next : ∀ {comma used others value values}, comma.kind = .comma → item used value →
    Derives others (further values) → Derives (comma :: used ++ others) (further (value :: values))
  none : Derives [] (whole [])
  some : ∀ {used others value values}, item used value → Derives others (further values) →
    Derives (used ++ others) (whole (value :: values))

section

variable {α : Type} {rule : Rule α} {item : List Token → α → Prop}
  {further whole : List α → Phrase}

/-- An accepted item covers the tokens after the current one, up to the one it ends on. -/
def ReadsItem (rule : Rule α) (item : List Token → α → Prop) : Prop :=
  ∀ {cursor reached : Cursor} {value : α}, Scanned cursor.ahead →
    outcome rule cursor = (.ok value, reached) → ∃ used, item used value ∧ Scanned used ∧
      (reached.mistakes = [] → cursor.ahead.tail = used ++ reached.ahead.tail)

theorem sound_itemsAfter (listing : Listing item further whole) (orderly : Orderly rule)
    (reads : ReadsItem rule item) (rounds : Nat) {cursor reached : Cursor} {values : List α}
    (scanned : Scanned cursor.ahead)
    (accepted : outcome (itemsAfter rule rounds) cursor = (.ok values, reached)) :
    ∃ used, Kept used (further values) cursor.ahead.tail reached.ahead.tail
      (reached.mistakes = []) := by
  induction rounds generalizing cursor values with
  | zero =>
      cases accepted
      exact ⟨[], listing.last, Scanned.nil, fun _ => rfl⟩
  | succ rounds ih =>
      rw [itemsAfter, outcome_peek_bind] at accepted
      by_cases divided : cursor.peek.kind = .comma
      · rw [if_pos divided, outcome_advance_bind] at accepted
        obtain ⟨value, middle, first, accepted⟩ := accepted_bind accepted
        obtain ⟨others, last, second, accepted⟩ := accepted_bind accepted
        cases accepted
        have more : cursor.peek.kind ≠ .endOfInput := by simp [divided]
        have passed := scanned.follows (Follows.advance cursor)
        have scanned_middle := passed.follows (orderly.follows first)
        obtain ⟨used, stands, lexical, exact_first⟩ := reads passed first
        obtain ⟨usedAfter, kept⟩ := ih scanned_middle second
        refine ⟨cursor.peek :: used ++ usedAfter, listing.next divided stands kept.derives,
          (lexical.cons (lexical_peek scanned more)).append kept.scanned, ?_⟩
        intro clean
        have follows := (orderly_itemsAfter orderly rounds).follows second
        have start : cursor.ahead.tail.tail = used ++ middle.ahead.tail :=
          exact_first (follows.clean clean)
        calc
          cursor.ahead.tail = cursor.peek :: cursor.ahead.tail.tail := tail_eq_cons more
          _ = cursor.peek :: (used ++ (usedAfter ++ reached.ahead.tail)) := by
            rw [start, kept.whole clean]
          _ = cursor.peek :: used ++ usedAfter ++ reached.ahead.tail := by
            simp only [List.cons_append, List.append_assoc]
      · rw [if_neg divided] at accepted
        cases accepted
        exact ⟨[], listing.last, Scanned.nil, fun _ => rfl⟩

theorem sound_listed (listing : Listing item further whole) (orderly : Orderly rule)
    (reads : ReadsItem rule item) {cursor reached : Cursor} {values : List α}
    (scanned : Scanned cursor.ahead)
    (accepted : outcome (listed rule) cursor = (.ok values, reached)) :
    reached.current.kind = .closeParen ∧
      ∃ used, Kept used (whole values) cursor.ahead.tail reached.ahead (reached.mistakes = []) := by
  rw [listed, outcome_peek_bind] at accepted
  by_cases closed : cursor.peek.kind = .closeParen
  · rw [if_pos closed, outcome_advance_bind] at accepted
    cases accepted
    exact ⟨closed, [], listing.none, Scanned.nil, fun _ => rfl⟩
  · rw [if_neg closed] at accepted
    obtain ⟨value, middle, first, accepted⟩ := accepted_bind accepted
    rw [outcome_remaining_bind] at accepted
    obtain ⟨others, last, second, accepted⟩ := accepted_bind accepted
    obtain ⟨_, ended, third, accepted⟩ := accepted_bind accepted
    obtain ⟨closes, rfl⟩ := accepted_expect third
    cases accepted
    have scanned_middle := scanned.follows (orderly.follows first)
    obtain ⟨used, stands, lexical, exact_first⟩ := reads scanned first
    obtain ⟨usedAfter, kept⟩ := sound_itemsAfter listing orderly reads _ scanned_middle second
    refine ⟨closes, used ++ usedAfter, listing.some stands kept.derives,
      lexical.append kept.scanned, ?_⟩
    intro clean
    have follows := (orderly_itemsAfter orderly _).follows second
    rw [exact_first (follows.clean clean), kept.whole clean, List.append_assoc]
    rfl

end

theorem parameterListing :
    Listing (fun used (name : Identifier) =>
        ∃ token : Token, token.kind = .name ∧ used = [token] ∧ name = ⟨token, token.literal⟩)
      .furtherParameters .parameters where
  last := .lastParameter
  next := by
    rintro comma used others value values divides ⟨token, kind, rfl, rfl⟩ further
    exact .furtherParameters divides kind further
  none := .noParameters
  some := by
    rintro used others value values ⟨token, kind, rfl, rfl⟩ further
    exact .parameters kind further

theorem argumentListing :
    Listing (fun used node => Derives used (.expression .equality node)) .furtherArguments
      .arguments where
  last := .lastArgument
  next divides following further := .furtherArguments divides following further
  none := .noArguments
  some initial further := .arguments initial further

theorem sound_parameters {cursor reached : Cursor} {names : List Identifier}
    (scanned : Scanned cursor.ahead)
    (accepted : outcome parameters cursor = (.ok names, reached)) :
    reached.current.kind = .closeParen ∧
      ∃ used, Kept used (.parameters names) cursor.ahead.tail reached.ahead
        (reached.mistakes = []) := by
  have orderly : Orderly (expect .name >>= fun _ => identifier) :=
    orderly_bind (orderly_expect _) fun _ => orderly_identifier
  refine sound_listed parameterListing orderly ?_ scanned accepted
  intro cursor reached name scanned accepted
  obtain ⟨_, middle, first, accepted⟩ := accepted_bind accepted
  obtain ⟨kind, rfl⟩ := accepted_expect first
  cases accepted
  have more : cursor.peek.kind ≠ .endOfInput := by simp [kind]
  exact ⟨[cursor.peek], ⟨cursor.peek, kind, rfl, rfl⟩,
    Scanned.nil.cons (lexical_peek scanned more), fun _ => tail_eq_cons more⟩

/-- A rule for expressions reads one whose level its precedence admits, and as far as it reaches. -/
def Sound (precedence : Precedence) (rule : Rule Node) : Prop :=
  ∀ {cursor reached : Cursor} {node : Node}, Scanned cursor.ahead →
    outcome rule cursor = (.ok node, reached) →
      (∃ used, Grown used precedence.above node cursor.ahead reached) ∧
        reached.nextRank ≤ precedence.rank

theorem sound_number {cursor reached : Cursor} {node : Node} (scanned : Scanned cursor.ahead)
    (kind : cursor.current.kind = .number)
    (accepted : outcome number cursor = (.ok node, reached)) :
    ∃ used, Grown used .primary node cursor.ahead reached := by
  have more : cursor.current.kind ≠ .endOfInput := by simp [kind]
  obtain ⟨nonempty, digits⟩ := (lexical_current scanned more).digits kind
  rw [number, outcome_current_bind, Numeral.read?_digits nonempty digits] at accepted
  by_cases bound : cursor.current.literal.toList.length ≤ Numeral.digitLimit
  · rw [if_pos bound] at accepted
    cases accepted
    exact ⟨_, grown_current scanned more (.number kind nonempty digits bound)⟩
  · rw [if_neg bound] at accepted
    cases accepted

theorem sound_truth {cursor reached : Cursor} {node : Node} (scanned : Scanned cursor.ahead)
    (kind : cursor.current.kind = .trueWord ∨ cursor.current.kind = .falseWord)
    (accepted : outcome truth cursor = (.ok node, reached)) :
    ∃ used, Grown used .primary node cursor.ahead reached := by
  rw [truth, outcome_current_bind] at accepted
  cases accepted
  rcases kind with yes | no
  · have more : cursor.current.kind ≠ .endOfInput := by simp [yes]
    rw [decide_eq_true yes]
    exact ⟨_, grown_current scanned more (.affirmation yes)⟩
  · have more : cursor.current.kind ≠ .endOfInput := by simp [no]
    rw [decide_eq_false (by simp [no])]
    exact ⟨_, grown_current scanned more (.negation no)⟩

section

variable {sub : Precedence → Rule Node} (sound : ∀ precedence, Sound precedence (sub precedence))
include sound

theorem sound_letStatement {cursor reached : Cursor} {node : Node}
    (scanned : Scanned cursor.ahead) (starts : cursor.current.kind = .letWord)
    (accepted : outcome (letStatement sub) cursor = (.ok node, reached)) :
    ∃ used, Closed used node cursor.ahead reached.ahead.tail (reached.mistakes = []) := by
  rw [letStatement, outcome_current_bind] at accepted
  obtain ⟨_, _, first, accepted⟩ := accepted_bind accepted
  obtain ⟨kind, rfl⟩ := accepted_expect first
  obtain ⟨target, _, second, accepted⟩ := accepted_bind accepted
  cases second
  obtain ⟨_, _, third, accepted⟩ := accepted_bind accepted
  obtain ⟨assigns, rfl⟩ := accepted_expect third
  rw [outcome_advance_bind] at accepted
  obtain ⟨value, stopped, fourth, accepted⟩ := accepted_bind accepted
  obtain ⟨_, _, fifth, accepted⟩ := accepted_bind accepted
  cases accepted
  have more : cursor.current.kind ≠ .endOfInput := by simp [starts]
  have named : cursor.peek.kind ≠ .endOfInput := by simp [kind]
  have assigned : cursor.advance.peek.kind ≠ .endOfInput := by simp [assigns]
  have scanned_target := scanned.follows (Follows.advance cursor)
  have scanned_sign := scanned_target.follows (Follows.advance _)
  have scanned_value := scanned_sign.follows (Follows.advance _)
  obtain ⟨⟨used, grown⟩, ends⟩ := sound .lowest scanned_value fourth
  refine ⟨cursor.current :: cursor.peek :: cursor.advance.peek :: used,
    closed_of_passed ⟨.binding starts kind assigns grown.kept.derives, ?_, ?_⟩ ends fifth⟩
  · have value := grown.kept.scanned.cons (lexical_peek scanned_target assigned)
    exact (value.cons (lexical_peek scanned named)).cons (lexical_current scanned more)
  · intro clean
    have rest : cursor.ahead.tail.tail.tail = used ++ stopped.ahead.tail := grown.kept.whole clean
    have sign : cursor.ahead.tail.tail = cursor.advance.peek :: cursor.ahead.tail.tail.tail :=
      tail_eq_cons assigned
    calc
      cursor.ahead = cursor.current :: cursor.peek :: cursor.ahead.tail.tail := by
        rw [← tail_eq_cons named, ← ahead_eq_cons more]
      _ = cursor.current :: cursor.peek :: cursor.advance.peek :: (used ++ stopped.ahead.tail) := by
        rw [sign, rest]

theorem sound_returnStatement {cursor reached : Cursor} {node : Node}
    (scanned : Scanned cursor.ahead) (starts : cursor.current.kind = .returnWord)
    (accepted : outcome (returnStatement sub) cursor = (.ok node, reached)) :
    ∃ used, Closed used node cursor.ahead reached.ahead.tail (reached.mistakes = []) := by
  rw [returnStatement, outcome_current_bind, outcome_advance_bind] at accepted
  obtain ⟨value, stopped, first, accepted⟩ := accepted_bind accepted
  obtain ⟨_, _, second, accepted⟩ := accepted_bind accepted
  cases accepted
  have more : cursor.current.kind ≠ .endOfInput := by simp [starts]
  have scanned_value := scanned.follows (Follows.advance cursor)
  obtain ⟨⟨used, grown⟩, ends⟩ := sound .lowest scanned_value first
  refine ⟨cursor.current :: used,
    closed_of_passed ⟨.returning starts grown.kept.derives, ?_, ?_⟩ ends second⟩
  · exact grown.kept.scanned.cons (lexical_current scanned more)
  · intro clean
    have rest : cursor.ahead.tail = used ++ stopped.ahead.tail := grown.kept.whole clean
    rw [ahead_eq_cons more, rest]
    rfl

theorem sound_expressionStatement {cursor reached : Cursor} {node : Node}
    (scanned : Scanned cursor.ahead)
    (accepted : outcome (expressionStatement sub) cursor = (.ok node, reached)) :
    ∃ used, Closed used node cursor.ahead reached.ahead.tail (reached.mistakes = []) := by
  rw [expressionStatement, outcome_current_bind] at accepted
  obtain ⟨value, stopped, first, accepted⟩ := accepted_bind accepted
  obtain ⟨_, _, second, accepted⟩ := accepted_bind accepted
  cases accepted
  obtain ⟨⟨used, grown⟩, ends⟩ := sound .lowest scanned first
  obtain ⟨token, rest, rfl, starts⟩ := grown.kept.derives.starts
  have current : cursor.current = token := by
    rw [Cursor.current, List.headD_eq_head?_getD, ← grown.head]
    rfl
  rw [current]
  exact ⟨token :: rest,
    closed_of_passed ⟨.evaluation grown.kept.derives, grown.kept.scanned, grown.kept.whole⟩ ends
      second⟩

theorem sound_statement {cursor reached : Cursor} {node : Node} (scanned : Scanned cursor.ahead)
    (accepted : outcome (statement sub) cursor = (.ok node, reached)) :
    ∃ used, Closed used node cursor.ahead reached.ahead.tail (reached.mistakes = []) := by
  rw [statement, outcome_current_bind] at accepted
  split at accepted
  · exact sound_letStatement sound scanned ‹_› accepted
  · exact sound_returnStatement sound scanned ‹_› accepted
  · exact sound_expressionStatement sound scanned accepted

theorem sound_unary {cursor reached : Cursor} {node : Node} (scanned : Scanned cursor.ahead)
    (operates : cursor.current.kind = .minus ∨ cursor.current.kind = .bang)
    (accepted : outcome (unary sub) cursor = (.ok node, reached)) :
    (∃ used, Grown used .unary node cursor.ahead reached) ∧
      reached.nextRank ≤ Level.unary.rank := by
  rw [unary, outcome_current_bind, outcome_advance_bind] at accepted
  obtain ⟨inner, last, first, accepted⟩ := accepted_bind accepted
  cases accepted
  have more : cursor.current.kind ≠ .endOfInput := by
    rcases operates with kind | kind <;> simp [kind]
  have inside := scanned.follows (Follows.advance cursor)
  obtain ⟨⟨used, grown⟩, ends⟩ := sound .unary inside first
  refine ⟨⟨cursor.current :: used, Kept.grown ⟨.unary operates grown.kept.derives,
    grown.kept.scanned.cons (lexical_current scanned more), ?_⟩ rfl more⟩, ends⟩
  intro clean
  have rest : cursor.ahead.tail = used ++ reached.ahead.tail := grown.kept.whole clean
  rw [ahead_eq_cons more, rest]
  rfl

variable (orderly : ∀ precedence, Orderly (sub precedence))
include orderly

theorem sound_arguments {cursor reached : Cursor} {nodes : List Node}
    (scanned : Scanned cursor.ahead)
    (accepted : outcome (arguments sub) cursor = (.ok nodes, reached)) :
    reached.current.kind = .closeParen ∧
      ∃ used, Kept used (.arguments nodes) cursor.ahead.tail reached.ahead
        (reached.mistakes = []) := by
  have orderly_item : Orderly (advance >>= fun _ => sub .lowest) :=
    orderly_bind orderly_advance fun _ => orderly _
  refine sound_listed argumentListing orderly_item ?_ scanned accepted
  intro cursor reached node scanned accepted
  rw [outcome_advance_bind] at accepted
  have passed := scanned.follows (Follows.advance cursor)
  obtain ⟨⟨used, grown⟩, _⟩ := sound .lowest passed accepted
  exact ⟨used, grown.kept.derives, grown.kept.scanned, grown.kept.whole⟩

theorem sound_statementsFor (stop : Kind) (rounds : Nat) {cursor reached : Cursor}
    {nodes : List Node} (scanned : Scanned cursor.ahead)
    (accepted : outcome (statementsFor sub stop rounds) cursor = (.ok nodes, reached)) :
    (∃ used, Kept used (.statements nodes) cursor.ahead reached.ahead (reached.mistakes = [])) ∧
      (reached.mistakes = [] → cursor.ahead.length ≤ rounds →
        reached.current.kind = stop ∨ reached.current.kind = .endOfInput) := by
  induction rounds generalizing cursor nodes with
  | zero =>
      cases accepted
      refine ⟨⟨[], .noStatements, Scanned.nil, fun _ => rfl⟩, fun _ bound => .inr ?_⟩
      have empty : reached.ahead = [] := List.length_eq_zero_iff.mp (Nat.le_zero.mp bound)
      rw [Cursor.current, empty]
      rfl
  | succ rounds ih =>
      rw [statementsFor, outcome_current_bind] at accepted
      by_cases stopped : cursor.current.kind = stop ∨ cursor.current.kind = .endOfInput
      · rw [if_pos stopped] at accepted
        cases accepted
        exact ⟨⟨[], .noStatements, Scanned.nil, fun _ => rfl⟩, fun _ _ => stopped⟩
      · rw [if_neg stopped] at accepted
        obtain ⟨attempted, middle, first, accepted⟩ := accepted_bind accepted
        have progress := (orderly_attempt orderly).follows first
        have scanned_middle := scanned.follows progress
        cases attempted with
        | none =>
            have follows := (orderly_statementsFor orderly stop rounds).follows accepted
            obtain ⟨⟨used, kept⟩, _⟩ := ih scanned_middle accepted
            have unclean : reached.mistakes ≠ [] :=
              fun clean => attempt_none orderly first (follows.clean clean)
            exact ⟨⟨used, kept.derives, kept.scanned, fun clean => absurd clean unclean⟩,
              fun clean => absurd clean unclean⟩
        | some node =>
            rw [outcome_advance_bind] at accepted
            obtain ⟨others, last, second, accepted⟩ := accepted_bind accepted
            cases accepted
            have follows := (orderly_statementsFor orderly stop rounds).follows second
            have scanned_rest := scanned_middle.follows (Follows.advance middle)
            obtain ⟨⟨rest, kept⟩, ends⟩ := ih scanned_rest second
            obtain ⟨used, closed⟩ := sound_statement sound scanned (accepted_attempt first)
            refine ⟨closed.followed kept follows.clean scanned, fun clean bound => ends clean ?_⟩
            have more : cursor.current.kind ≠ .endOfInput := fun kind => stopped (.inr kind)
            have shorter : middle.ahead.length ≤ cursor.ahead.length := progress.length_le
            have taken : middle.advance.ahead.length = middle.ahead.length - 1 :=
              List.length_tail
            omega

theorem sound_block {cursor reached : Cursor} {node : Node} (scanned : Scanned cursor.ahead)
    (opens : cursor.current.kind = .openBrace)
    (accepted : outcome (block sub) cursor = (.ok node, reached)) :
    ∃ used, Kept used (.block node) cursor.ahead reached.ahead.tail (reached.mistakes = []) := by
  rw [block, outcome_current_bind, outcome_advance_bind, outcome_modify_bind] at accepted
  obtain ⟨inner, last, first, accepted⟩ := accepted_bind accepted
  rw [outcome_modify_bind, outcome_current_bind] at accepted
  by_cases closes : last.closeBlock.current.kind = .closeBrace
  · rw [if_pos closes] at accepted
    cases accepted
    rw [statements, outcome_remaining_bind] at first
    have more : cursor.current.kind ≠ .endOfInput := by simp [opens]
    have ended : last.current.kind ≠ .endOfInput := by
      have kind : last.current.kind = .closeBrace := closes
      simp [kind]
    have inside := scanned.follows ((Follows.advance cursor).trans (Follows.openBlock _))
    have follows := (orderly_statementsFor orderly _ _).follows first
    obtain ⟨⟨used, kept⟩, _⟩ := sound_statementsFor sound orderly _ _ inside first
    have scanned_last := inside.follows follows
    refine ⟨cursor.current :: used ++ [last.current], .block opens closes kept.derives, ?_, ?_⟩
    · exact (kept.scanned.cons (lexical_current scanned more)).append
        (Scanned.nil.cons (lexical_current scanned_last ended))
    · intro clean
      have middle : cursor.ahead.tail = used ++ last.ahead := kept.whole clean
      calc
        cursor.ahead = cursor.current :: (used ++ last.ahead) := by
          rw [← middle, ← ahead_eq_cons more]
        _ = cursor.current :: (used ++ last.current :: last.ahead.tail) := by
          rw [← ahead_eq_cons ended]
        _ = cursor.current :: used ++ [last.current] ++ last.ahead.tail := by
          simp only [List.cons_append, List.append_assoc, List.nil_append]
  · rw [if_neg closes] at accepted
    cases accepted

theorem sound_grouped {cursor reached : Cursor} {node : Node} (scanned : Scanned cursor.ahead)
    (opens : cursor.current.kind = .openParen)
    (accepted : outcome (grouped sub) cursor = (.ok node, reached)) :
    ∃ used, Grown used .primary node cursor.ahead reached := by
  rw [grouped, outcome_advance_bind] at accepted
  obtain ⟨inner, last, first, accepted⟩ := accepted_bind accepted
  obtain ⟨_, _, second, accepted⟩ := accepted_bind accepted
  obtain ⟨closes, rfl⟩ := accepted_expect second
  cases accepted
  have more : cursor.current.kind ≠ .endOfInput := by simp [opens]
  have ended : last.peek.kind ≠ .endOfInput := by simp [closes]
  have inside := scanned.follows (Follows.advance cursor)
  have scanned_last := inside.follows ((orderly _).follows first)
  obtain ⟨⟨used, grown⟩, _⟩ := sound .lowest inside first
  refine ⟨cursor.current :: used ++ [last.peek],
    Kept.grown ⟨.group opens closes grown.kept.derives, ?_, ?_⟩ rfl more⟩
  · exact (grown.kept.scanned.cons (lexical_current scanned more)).append
      (Scanned.nil.cons (lexical_peek scanned_last ended))
  · intro clean
    have rest : cursor.ahead.tail = used ++ last.ahead.tail := grown.kept.whole clean
    calc
      cursor.ahead = cursor.current :: (used ++ last.ahead.tail) := by
        rw [← rest, ← ahead_eq_cons more]
      _ = cursor.current :: (used ++ last.peek :: last.ahead.tail.tail) := by
        rw [← tail_eq_cons ended]
      _ = cursor.current :: used ++ [last.peek] ++ last.ahead.tail.tail := by
        simp only [List.cons_append, List.append_assoc, List.nil_append]

theorem sound_function {cursor reached : Cursor} {node : Node} (scanned : Scanned cursor.ahead)
    (starts : cursor.current.kind = .fnWord)
    (accepted : outcome (function sub) cursor = (.ok node, reached)) :
    ∃ used, Grown used .primary node cursor.ahead reached := by
  rw [function, outcome_current_bind] at accepted
  obtain ⟨_, _, first, accepted⟩ := accepted_bind accepted
  obtain ⟨opens, rfl⟩ := accepted_expect first
  obtain ⟨names, middle, second, accepted⟩ := accepted_bind accepted
  obtain ⟨_, _, third, accepted⟩ := accepted_bind accepted
  obtain ⟨braces, rfl⟩ := accepted_expect third
  obtain ⟨body, last, fourth, accepted⟩ := accepted_bind accepted
  cases accepted
  have more : cursor.current.kind ≠ .endOfInput := by simp [starts]
  have opened : cursor.peek.kind ≠ .endOfInput := by simp [opens]
  have scanned_opening := scanned.follows (Follows.advance cursor)
  have scanned_middle := scanned_opening.follows (orderly_parameters.follows second)
  have scanned_body := scanned_middle.follows (Follows.advance middle)
  obtain ⟨closes, named, parameters⟩ := sound_parameters scanned_opening second
  have closed : middle.current.kind ≠ .endOfInput := by simp [closes]
  obtain ⟨used, kept⟩ := sound_block sound orderly scanned_body braces fourth
  refine ⟨cursor.current :: cursor.peek :: named ++ middle.current :: used,
    Kept.grown ⟨.function starts opens closes parameters.derives kept.derives, ?_, ?_⟩ rfl more⟩
  · have front := parameters.scanned.cons (lexical_peek scanned opened)
    exact (front.cons (lexical_current scanned more)).append
      (kept.scanned.cons (lexical_current scanned_middle closed))
  · intro clean
    have follows := (orderly_block orderly).follows fourth
    have inner : cursor.ahead.tail.tail = named ++ middle.ahead :=
      parameters.whole (follows.clean clean)
    have rest : middle.ahead.tail = used ++ reached.ahead.tail := kept.whole clean
    calc
      cursor.ahead = cursor.current :: cursor.peek :: (named ++ middle.ahead) := by
        rw [← inner, ← tail_eq_cons opened, ← ahead_eq_cons more]
      _ = cursor.current :: cursor.peek :: (named ++ middle.current ::
            (used ++ reached.ahead.tail)) := by
        rw [← rest, ← ahead_eq_cons closed]
      _ = cursor.current :: cursor.peek :: named ++ middle.current :: used ++
            reached.ahead.tail := by
        simp only [List.cons_append, List.append_assoc]

/-- A conditional that was read from `cursor` up to its first block. -/
structure Asked (cursor middle : Cursor) (closing : Token) (condition consequence : List Token)
    (first second : Node) : Prop where
  opens : cursor.peek.kind = .openParen
  closes : closing.kind = .closeParen
  tested : Derives condition (.expression .equality first)
  chosen : Derives consequence (.block second)
  scanned : Scanned (cursor.current :: cursor.peek :: condition ++ closing :: consequence)
  ahead : Scanned middle.ahead
  whole : middle.mistakes = [] →
    cursor.ahead = cursor.current :: cursor.peek :: condition ++ closing :: consequence ++
      middle.ahead.tail

theorem sound_asked {cursor reached : Cursor} {node : Node} (scanned : Scanned cursor.ahead)
    (starts : cursor.current.kind = .ifWord)
    (accepted : outcome (conditional sub) cursor = (.ok node, reached)) :
    ∃ middle closing condition consequence first second,
      Asked cursor middle closing condition consequence first second ∧
        outcome (elseBranch sub cursor.current first second) middle = (.ok node, reached) := by
  rw [conditional, outcome_current_bind] at accepted
  obtain ⟨_, _, first, accepted⟩ := accepted_bind accepted
  obtain ⟨opens, rfl⟩ := accepted_expect first
  rw [outcome_advance_bind] at accepted
  obtain ⟨condition, tested, second, accepted⟩ := accepted_bind accepted
  obtain ⟨_, _, third, accepted⟩ := accepted_bind accepted
  obtain ⟨closes, rfl⟩ := accepted_expect third
  obtain ⟨_, _, fourth, accepted⟩ := accepted_bind accepted
  obtain ⟨braces, rfl⟩ := accepted_expect fourth
  obtain ⟨consequence, chosen, fifth, accepted⟩ := accepted_bind accepted
  have more : cursor.current.kind ≠ .endOfInput := by simp [starts]
  have opened : cursor.peek.kind ≠ .endOfInput := by simp [opens]
  have closed : tested.peek.kind ≠ .endOfInput := by simp [closes]
  have scanned_condition :=
    scanned.follows ((Follows.advance cursor).trans (Follows.advance cursor.advance))
  have scanned_tested := scanned_condition.follows ((orderly _).follows second)
  have scanned_block :=
    scanned_tested.follows ((Follows.advance tested).trans (Follows.advance tested.advance))
  have follows := (orderly_block orderly).follows fifth
  obtain ⟨⟨used, grown⟩, _⟩ := sound .lowest scanned_condition second
  obtain ⟨body, kept⟩ := sound_block sound orderly scanned_block braces fifth
  have front : Scanned (cursor.current :: cursor.peek :: used) :=
    (grown.kept.scanned.cons (lexical_peek scanned opened)).cons (lexical_current scanned more)
  refine ⟨chosen, tested.peek, used, body, condition, consequence, ⟨opens, closes,
    grown.kept.derives, kept.derives,
    front.append (kept.scanned.cons (lexical_peek scanned_tested closed)),
    scanned_block.follows follows, ?_⟩, accepted⟩
  intro clean
  have inner : cursor.ahead.tail.tail = used ++ tested.ahead.tail :=
    grown.kept.whole (follows.clean clean)
  have rest : tested.ahead.tail.tail = body ++ chosen.ahead.tail := kept.whole clean
  calc
    cursor.ahead = cursor.current :: cursor.peek :: (used ++ tested.ahead.tail) := by
      rw [← inner, ← tail_eq_cons opened, ← ahead_eq_cons more]
    _ = cursor.current :: cursor.peek :: (used ++ tested.peek :: (body ++ chosen.ahead.tail)) := by
      rw [← rest, ← tail_eq_cons closed]
    _ = cursor.current :: cursor.peek :: used ++ tested.peek :: body ++ chosen.ahead.tail := by
      simp only [List.cons_append, List.append_assoc]

theorem sound_conditional {cursor reached : Cursor} {node : Node} (scanned : Scanned cursor.ahead)
    (starts : cursor.current.kind = .ifWord)
    (accepted : outcome (conditional sub) cursor = (.ok node, reached)) :
    ∃ used, Grown used .primary node cursor.ahead reached := by
  have more : cursor.current.kind ≠ .endOfInput := by simp [starts]
  obtain ⟨middle, closing, condition, consequence, first, second, asked, accepted⟩ :=
    sound_asked sound orderly scanned starts accepted
  rw [elseBranch, outcome_peek_bind] at accepted
  by_cases divides : middle.peek.kind = .elseWord
  · rw [if_pos divides, outcome_advance_bind] at accepted
    obtain ⟨_, _, third, accepted⟩ := accepted_bind accepted
    obtain ⟨braces, rfl⟩ := accepted_expect third
    obtain ⟨alternative, last, fourth, accepted⟩ := accepted_bind accepted
    cases accepted
    have divided : middle.peek.kind ≠ .endOfInput := by simp [divides]
    have scanned_block :=
      asked.ahead.follows ((Follows.advance middle).trans (Follows.advance middle.advance))
    have follows := (orderly_block orderly).follows fourth
    obtain ⟨body, kept⟩ := sound_block sound orderly scanned_block braces fourth
    refine ⟨_, Kept.grown ⟨.alternative starts asked.opens asked.closes divides asked.tested
      asked.chosen kept.derives, ?_, ?_⟩ rfl more⟩
    · exact asked.scanned.append (kept.scanned.cons (lexical_peek asked.ahead divided))
    · intro clean
      have rest : middle.ahead.tail.tail = body ++ reached.ahead.tail := kept.whole clean
      rw [asked.whole (follows.clean clean), tail_eq_cons divided, rest]
      simp only [List.cons_append, List.append_assoc]
  · rw [if_neg divides] at accepted
    cases accepted
    exact ⟨_, Kept.grown ⟨.conditional starts asked.opens asked.closes asked.tested asked.chosen,
      asked.scanned, asked.whole⟩ rfl more⟩

/-- An operand is an operator before its own operand, or is primary. -/
theorem sound_operand {cursor reached : Cursor} {node : Node} (scanned : Scanned cursor.ahead)
    (accepted : outcome (operand sub) cursor = (.ok node, reached)) :
    ∃ level used, Grown used level node cursor.ahead reached ∧
      Level.unary.rank ≤ level.rank ∧ reached.nextRank ≤ level.rank := by
  have primary : (∃ used, Grown used .primary node cursor.ahead reached) →
      ∃ level used, Grown used level node cursor.ahead reached ∧
        Level.unary.rank ≤ level.rank ∧ reached.nextRank ≤ level.rank := by
    rintro ⟨used, grown⟩
    exact ⟨.primary, used, grown, by decide, nextRank_le_primary reached⟩
  have prefixed : (∃ used, Grown used .unary node cursor.ahead reached) ∧
      reached.nextRank ≤ Level.unary.rank →
      ∃ level used, Grown used level node cursor.ahead reached ∧
        Level.unary.rank ≤ level.rank ∧ reached.nextRank ≤ level.rank := by
    rintro ⟨⟨used, grown⟩, ends⟩
    exact ⟨.unary, used, grown, Nat.le_refl _, ends⟩
  rw [operand, outcome_current_bind] at accepted
  split at accepted
  · rename_i kind
    cases accepted
    exact primary ⟨_, grown_current scanned (by simp [kind]) (.name kind)⟩
  · exact primary (sound_number scanned ‹_› accepted)
  · exact primary (sound_truth scanned (.inl ‹_›) accepted)
  · exact primary (sound_truth scanned (.inr ‹_›) accepted)
  · exact prefixed (sound_unary sound scanned (.inr ‹_›) accepted)
  · exact prefixed (sound_unary sound scanned (.inl ‹_›) accepted)
  · exact primary (sound_grouped sound orderly scanned ‹_› accepted)
  · exact primary (sound_conditional sound orderly scanned ‹_› accepted)
  · exact primary (sound_function sound orderly scanned ‹_› accepted)
  · cases accepted

theorem sound_call {start used : List Token} {left wider : Node} {stopped reached : Cursor}
    (grown : Grown used .call left start stopped) (scanned : Scanned stopped.ahead)
    (opens : stopped.peek.kind = .openParen)
    (accepted : outcome (call sub left) stopped.advance = (.ok wider, reached)) :
    ∃ used, Grown used .call wider start reached := by
  rw [call, outcome_current_bind] at accepted
  obtain ⟨nodes, last, first, accepted⟩ := accepted_bind accepted
  cases accepted
  have more : stopped.peek.kind ≠ .endOfInput := by simp [opens]
  have passed := scanned.follows (Follows.advance stopped)
  have follows := (orderly_arguments orderly).follows first
  obtain ⟨closes, given, kept⟩ := sound_arguments sound orderly passed first
  have closed : reached.current.kind ≠ .endOfInput := by simp [closes]
  have lexical_closing := lexical_current (passed.follows follows) closed
  refine ⟨used ++ stopped.peek :: given ++ [reached.current],
    ⟨.call opens closes grown.kept.derives kept.derives, ?_, ?_⟩, ?_⟩
  · exact (grown.kept.scanned.append (kept.scanned.cons (lexical_peek scanned more))).append
      (Scanned.nil.cons lexical_closing)
  · intro clean
    have inner : stopped.ahead.tail.tail = given ++ reached.ahead := kept.whole clean
    calc
      start = used ++ stopped.ahead.tail := grown.kept.whole (follows.clean clean)
      _ = used ++ stopped.peek :: (given ++ reached.ahead) := by rw [← inner, ← tail_eq_cons more]
      _ = used ++ stopped.peek :: (given ++ reached.current :: reached.ahead.tail) := by
        rw [← ahead_eq_cons closed]
      _ = used ++ stopped.peek :: given ++ [reached.current] ++ reached.ahead.tail := by
        simp only [List.cons_append, List.append_assoc, List.nil_append]
  · obtain ⟨token, rest, rfl, _⟩ := grown.kept.derives.starts
    exact grown.head

theorem sound_binary {start used : List Token} {level : Level} {left wider : Node}
    {stopped reached : Cursor} (grown : Grown used level left start stopped)
    (scanned : Scanned stopped.ahead) (operates : stopped.peek.kind ∈ level.operators)
    (tighter : (Precedence.ofKind stopped.peek.kind).above = level.tighter)
    (accepted : outcome (binary sub left) stopped.advance = (.ok wider, reached)) :
    (∃ used, Grown used level wider start reached) ∧ reached.nextRank ≤ stopped.nextRank := by
  rw [binary, outcome_current_bind, outcome_advance_bind] at accepted
  obtain ⟨right, last, first, accepted⟩ := accepted_bind accepted
  cases accepted
  have more : stopped.peek.kind ≠ .endOfInput := by
    intro kind
    rw [kind] at operates
    cases level <;> exact absurd operates (by decide)
  have passed := scanned.follows (Follows.advance stopped)
  have follows := (orderly _).follows first
  obtain ⟨⟨usedRight, grownRight⟩, ends⟩ := sound _ (passed.follows (Follows.advance _)) first
  rw [show (stopped.advance).current = stopped.peek from rfl, tighter] at grownRight
  refine ⟨⟨used ++ stopped.peek :: usedRight,
    ⟨.binary operates grown.kept.derives grownRight.kept.derives, ?_, ?_⟩, ?_⟩, ends⟩
  · exact grown.kept.scanned.append (grownRight.kept.scanned.cons (lexical_peek scanned more))
  · intro clean
    have rest : stopped.ahead.tail.tail = usedRight ++ reached.ahead.tail :=
      grownRight.kept.whole clean
    calc
      start = used ++ stopped.ahead.tail := grown.kept.whole (follows.clean clean)
      _ = used ++ stopped.peek :: (usedRight ++ reached.ahead.tail) := by
        rw [← rest, ← tail_eq_cons more]
      _ = used ++ stopped.peek :: usedRight ++ reached.ahead.tail := by
        simp only [List.cons_append, List.append_assoc]
  · obtain ⟨token, rest, rfl, _⟩ := grown.kept.derives.starts
    exact grown.head

/-- What follows an expression widens it to an expression of the level of what follows. -/
theorem sound_extend {start used : List Token} {level : Level} {left wider : Node}
    {stopped reached : Cursor} (grown : Grown used level left start stopped)
    (scanned : Scanned stopped.ahead) (continues : 1 < stopped.nextRank)
    (bound : stopped.nextRank ≤ level.rank)
    (accepted : outcome (extend sub left) stopped.advance = (.ok wider, reached)) :
    ∃ level used, Grown used level wider start reached ∧ level.rank = stopped.nextRank ∧
      reached.nextRank ≤ level.rank := by
  rw [extend, outcome_current_bind] at accepted
  have current : stopped.advance.current = stopped.peek := rfl
  rw [current] at accepted
  by_cases opens : stopped.peek.kind = .openParen
  · rw [if_pos opens] at accepted
    have rank : Level.call.rank = stopped.nextRank := by
      rw [nextRank_eq, opens]
      rfl
    have callee : Grown used .call left start stopped :=
      ⟨grown.kept.loosen (rank ▸ bound), grown.head⟩
    obtain ⟨used, called⟩ := sound_call sound orderly callee scanned opens accepted
    exact ⟨.call, used, called, rank, nextRank_le_call reached⟩
  · rw [if_neg opens] at accepted
    obtain ⟨target, operates, rank, tighter⟩ := Precedence.continues continues opens
    have operand : Grown used target left start stopped :=
      ⟨grown.kept.loosen (rank ▸ bound), grown.head⟩
    obtain ⟨⟨used, wide⟩, ends⟩ :=
      sound_binary sound orderly operand scanned operates tighter accepted
    exact ⟨target, used, wide, rank, rank ▸ ends⟩

theorem sound_climb (precedence : Precedence) (rounds : Nat) {start used : List Token}
    {level : Level} {left node : Node} {cursor reached : Cursor}
    (grown : Grown used level left start cursor) (scanned : Scanned cursor.ahead)
    (least : precedence.above.rank ≤ level.rank) (bound : cursor.nextRank ≤ level.rank)
    (enough : cursor.ahead.tail.length ≤ rounds)
    (accepted : outcome (climb sub precedence rounds left) cursor = (.ok node, reached)) :
    (∃ used, Grown used precedence.above node start reached) ∧
      reached.nextRank ≤ precedence.rank := by
  induction rounds generalizing cursor level left used with
  | zero =>
      cases accepted
      refine ⟨⟨used, grown.kept.loosen least, grown.head⟩, ?_⟩
      rw [nextRank_of_tail_nil (List.length_eq_zero_iff.mp (Nat.le_zero.mp enough))]
      exact precedence.rank_pos
  | succ rounds ih =>
      rw [climb, outcome_peek_bind] at accepted
      by_cases continues : precedence.rank < cursor.nextRank
      · have condition : precedence.rank < (Precedence.ofKind cursor.peek.kind).rank := continues
        rw [if_pos condition, outcome_advance_bind] at accepted
        obtain ⟨wider, middle, first, accepted⟩ := accepted_bind accepted
        have positive := precedence.rank_pos
        obtain ⟨target, usedWider, wide, rank, ends⟩ :=
          sound_extend sound orderly grown scanned (by omega) bound first
        have follows := (orderly_extend orderly left).follows first
        have shorter : middle.ahead.length ≤ cursor.ahead.tail.length := follows.length_le
        have room : middle.ahead.tail.length ≤ rounds := by
          rw [List.length_tail]
          omega
        have admitted := precedence.above_rank_le_succ
        exact ih wide (scanned.follows ((Follows.advance cursor).trans follows)) (by omega) ends
          room accepted
      · have condition : ¬precedence.rank < (Precedence.ofKind cursor.peek.kind).rank := continues
        rw [if_neg condition] at accepted
        cases accepted
        exact ⟨⟨used, grown.kept.loosen least, grown.head⟩, Nat.le_of_not_lt continues⟩

end

theorem sound_expression (depth : Nat) (precedence : Precedence) :
    Sound precedence (expression depth precedence) := by
  induction depth generalizing precedence with
  | zero =>
      intro cursor reached node scanned accepted
      cases accepted
  | succ depth ih =>
      intro cursor reached node scanned accepted
      have orderly := orderly_expression depth
      rw [expression] at accepted
      obtain ⟨left, middle, first, accepted⟩ := accepted_bind accepted
      rw [outcome_remaining_bind] at accepted
      obtain ⟨level, used, grown, least, bound⟩ := sound_operand ih orderly scanned first
      have scanned_middle := scanned.follows ((orderly_operand orderly).follows first)
      have enough : middle.ahead.tail.length ≤ middle.ahead.length := by
        rw [List.length_tail]
        omega
      exact sound_climb ih orderly precedence _ grown scanned_middle
        (Nat.le_trans precedence.above_rank_le least) bound enough accepted

theorem readTokens_eq {depth : Nat} {tokens : List Token} {nodes : List Node} {reached : Cursor}
    (read : outcome (statementsFor (expression depth) .endOfInput tokens.length)
      (Cursor.start tokens) = (.ok nodes, reached)) :
    readTokens depth tokens = ⟨.program nodes, reached.mistakes⟩ := by
  have whole : outcome (program (expression depth)) (Cursor.start tokens) =
      (.ok (.program nodes), reached) := by
    rw [program, statements]
    exact outcome_bind_ok read
  exact readTokens_of_program whole

/-- The statements that are kept derive, and where nothing is wrong they derive from all tokens. -/
theorem sound_readTokens (depth : Nat) {tokens : List Token} (scanned : Scanned tokens) :
    ∃ nodes used, (readTokens depth tokens).program = .program nodes ∧
      Derives used (.statements nodes) ∧ Scanned used ∧
        ((readTokens depth tokens).mistakes = [] → used = tokens) := by
  have orderly := orderly_expression depth
  have outermost : (Cursor.start tokens).openBlocks = 0 := rfl
  obtain ⟨nodes, reached, first⟩ :=
    statementsFor_settled orderly .endOfInput tokens.length outermost
  obtain ⟨⟨used, kept⟩, ends⟩ :=
    sound_statementsFor (sound_expression depth) orderly _ _ scanned first
  rw [readTokens_eq first]
  refine ⟨nodes, used, rfl, kept.derives, kept.scanned, fun clean => ?_⟩
  have whole : tokens = used ++ reached.ahead := kept.whole clean
  have stopped : reached.current.kind = .endOfInput :=
    (ends clean (Nat.le_refl _)).elim id id
  have follows := (orderly_statementsFor orderly _ _).follows first
  have empty : reached.ahead = [] := by
    cases rest : reached.ahead with
    | nil => rfl
    | cons token others =>
        have lexical : token.Lexical := by
          apply scanned.follows follows
          rw [rest]
          exact List.mem_cons_self
        have current : reached.current = token := by
          rw [Cursor.current, rest]
          rfl
        rw [current] at stopped
        exact absurd stopped lexical.kind_ne_endOfInput
  rw [whole, empty, List.append_nil]

end MonkeyLang.Grammar
