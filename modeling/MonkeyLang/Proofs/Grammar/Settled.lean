import MonkeyLang.Proofs.Grammar.Pairing

/-!
Tokens that end behind a semicolon and outside all blocks. What is read of them does not depend on
what follows them, and a malformed statement among them is left behind before they end.
-/

namespace MonkeyLang.Grammar

open Token (Kind)

/-- Tokens that close all braces they open, and as many more as were open before them. -/
def Closes : Nat → List Token → Prop
  | braces, [] => braces = 0
  | braces, token :: rest =>
    match token.kind with
    | .openBrace => Closes (braces + 1) rest
    | .closeBrace => 0 < braces ∧ Closes (braces - 1) rest
    | _ => Closes braces rest

/-- Tokens that end behind a semicolon and outside all braces, where no more blocks are open before
them than braces. -/
structure Settled (openBlocks : Nat) (tokens : List Token) : Prop where
  present : ∀ token ∈ tokens, token.kind ≠ .endOfInput
  ends : ∀ token ∈ tokens.getLast?, token.kind = .semicolon
  closes : ∃ braces, openBlocks ≤ braces ∧ Closes braces tokens

namespace Settled

variable {openBlocks : Nat} {token : Token} {rest tokens : List Token}

theorem ne_nil (settled : Settled openBlocks tokens) (inside : 0 < openBlocks) : tokens ≠ [] := by
  rintro rfl
  obtain ⟨braces, bound, closes⟩ := settled.closes
  exact absurd (Nat.lt_of_lt_of_le inside bound) (by rw [show braces = 0 from closes]; simp)

theorem mono {fewer : Nat} (settled : Settled openBlocks tokens) (bound : fewer ≤ openBlocks) :
    Settled fewer tokens := by
  obtain ⟨braces, bound', closes⟩ := settled.closes
  exact ⟨settled.present, settled.ends, braces, Nat.le_trans bound bound', closes⟩

/-- Behind a token that is no semicolon there is another one. -/
theorem more (settled : Settled openBlocks (token :: rest)) (kind : token.kind ≠ .semicolon) :
    rest ≠ [] := by
  rintro rfl
  exact kind (settled.ends token rfl)

theorem ends_tail (settled : Settled openBlocks (token :: rest)) :
    ∀ last ∈ rest.getLast?, last.kind = .semicolon := by
  intro last member
  apply settled.ends
  cases rest with
  | nil => cases member
  | cons next others => rwa [List.getLast?_cons_cons]

theorem present_tail (settled : Settled openBlocks (token :: rest)) :
    ∀ other ∈ rest, other.kind ≠ .endOfInput :=
  fun other member => settled.present other (List.mem_cons_of_mem _ member)

theorem tail (settled : Settled openBlocks (token :: rest)) (opens : token.kind ≠ .openBrace)
    (closes : token.kind ≠ .closeBrace) : Settled openBlocks rest := by
  obtain ⟨braces, bound, closed⟩ := settled.closes
  refine ⟨settled.present_tail, settled.ends_tail, braces, bound, ?_⟩
  unfold Closes at closed
  split at closed
  · exact absurd ‹_› opens
  · exact absurd ‹_› closes
  · exact closed

theorem tail_openBrace (settled : Settled openBlocks (token :: rest))
    (kind : token.kind = .openBrace) : Settled (openBlocks + 1) rest := by
  obtain ⟨braces, bound, closed⟩ := settled.closes
  refine ⟨settled.present_tail, settled.ends_tail, braces + 1, Nat.succ_le_succ bound, ?_⟩
  simpa only [Closes, kind] using closed

theorem tail_closeBrace (settled : Settled openBlocks (token :: rest))
    (kind : token.kind = .closeBrace) : Settled (openBlocks - 1) rest := by
  obtain ⟨braces, bound, closed⟩ := settled.closes
  simp only [Closes, kind] at closed
  exact ⟨settled.present_tail, settled.ends_tail, braces - 1, Nat.sub_le_sub_right bound 1,
    closed.2⟩

/-- A token that opens no brace may stand before settled tokens. -/
theorem cons (settled : Settled openBlocks rest) (nonempty : rest ≠ [])
    (present : token.kind ≠ .endOfInput) (opens : token.kind ≠ .openBrace) :
    Settled openBlocks (token :: rest) := by
  obtain ⟨braces, bound, closed⟩ := settled.closes
  have present_all : ∀ other ∈ token :: rest, other.kind ≠ .endOfInput := by
    intro other member
    rcases List.mem_cons.mp member with rfl | inside
    · exact present
    · exact settled.present other inside
  have ends_all : ∀ last ∈ (token :: rest).getLast?, last.kind = .semicolon := by
    cases rest with
    | nil => exact absurd rfl nonempty
    | cons next others =>
        rw [List.getLast?_cons_cons]
        exact settled.ends
  by_cases closes : token.kind = .closeBrace
  · refine ⟨present_all, ends_all, braces + 1, Nat.le_succ_of_le bound, ?_⟩
    simp only [Closes, closes]
    exact ⟨Nat.succ_pos _, closed⟩
  · refine ⟨present_all, ends_all, braces, bound, ?_⟩
    unfold Closes
    split
    · exact absurd ‹_› opens
    · exact absurd ‹_› closes
    · exact closed

end Settled

/-- What is passed over of a malformed statement lies within settled tokens and leaves settled
tokens. `braces` of the braces that are open were opened on the way. -/
theorem leftover_settled {enclosed : Bool} {openBlocks : Nat}
    (outermost : enclosed = false → openBlocks = 0) (following : List Token) {braces : Nat}
    {tokens : List Token} (nonempty : tokens ≠ [])
    (settled : Settled (braces + openBlocks) tokens) :
    leftover enclosed braces (tokens ++ following) = leftover enclosed braces tokens ∧
      leftover enclosed braces tokens ≤ tokens.length ∧
      Settled openBlocks (tokens.drop (leftover enclosed braces tokens)) := by
  induction tokens generalizing braces with
  | nil => exact absurd rfl nonempty
  | cons token rest ih =>
      have onward : ∀ {braces' : Nat}, rest ≠ [] → Settled (braces' + openBlocks) rest →
          leftover enclosed braces' (rest ++ following) + 1 = leftover enclosed braces' rest + 1 ∧
            leftover enclosed braces' rest + 1 ≤ rest.length + 1 ∧
            Settled openBlocks ((token :: rest).drop (leftover enclosed braces' rest + 1)) := by
        intro braces' more settled'
        obtain ⟨same, bound, left⟩ := ih more settled'
        exact ⟨congrArg (· + 1) same, Nat.succ_le_succ bound, left⟩
      rw [List.cons_append]
      unfold leftover
      split
      · rename_i kind
        exact absurd kind (settled.present token List.mem_cons_self)
      · rename_i kind
        have deeper := settled.tail_openBrace kind
        rw [Nat.add_right_comm] at deeper
        exact onward (settled.more (by rw [kind]; decide)) deeper
      · rename_i kind
        split
        · exact ⟨rfl, Nat.zero_le _, settled.mono (Nat.le_add_left _ _)⟩
        · rename_i passed
          apply onward (settled.more (by rw [kind]; decide))
          apply (settled.tail_closeBrace kind).mono
          cases enclosed with
          | false =>
              have none_open := outermost rfl
              omega
          | true =>
              have opened : braces ≠ 0 := fun none => passed ⟨none, rfl⟩
              omega
      · rename_i kind
        have left := settled.tail (by rw [kind]; decide) (by rw [kind]; decide)
        split
        · exact ⟨rfl, Nat.succ_le_succ (Nat.zero_le _), left.mono (Nat.le_add_left _ _)⟩
        · exact onward (left.ne_nil (by omega)) left
      · rename_i opens closes ends
        exact onward (settled.more ends) (settled.tail opens closes)

/-- Two cursors of which the second has more tokens ahead, more open blocks and earlier mistakes. -/
structure Beside (following : List Token) (around : Nat) (earlier : List Mistake)
    (c c' : Cursor) : Prop where
  ahead : c'.ahead = c.ahead ++ following
  openBlocks : c'.openBlocks = c.openBlocks + around
  mistakes : c'.mistakes = earlier ++ c.mistakes

namespace Beside

variable {following : List Token} {around : Nat} {earlier : List Mistake} {c c' : Cursor}

theorem current (beside : Beside following around earlier c c')
    (inside : following = [] ∨ c.ahead ≠ []) : c.current = c'.current := by
  rw [Cursor.current, Cursor.current, beside.ahead]
  rcases inside with rfl | nonempty
  · rw [List.append_nil]
  · cases shape : c.ahead with
    | nil => exact absurd shape nonempty
    | cons token rest => rfl

theorem advance (beside : Beside following around earlier c c')
    (inside : following = [] ∨ c.ahead ≠ []) :
    Beside following around earlier c.advance c'.advance := by
  refine ⟨?_, beside.openBlocks, beside.mistakes⟩
  change c'.ahead.tail = c.ahead.tail ++ following
  rw [beside.ahead]
  rcases inside with rfl | nonempty
  · rw [List.append_nil, List.append_nil]
  · exact List.tail_append_of_ne_nil nonempty

theorem record (beside : Beside following around earlier c c') (mistake : Mistake) :
    Beside following around earlier (c.record mistake) (c'.record mistake) := by
  refine ⟨beside.ahead, beside.openBlocks, ?_⟩
  change c'.mistakes ++ [mistake] = earlier ++ (c.mistakes ++ [mistake])
  rw [beside.mistakes, List.append_assoc]

theorem openBlock (beside : Beside following around earlier c c') :
    Beside following around earlier c.openBlock c'.openBlock := by
  refine ⟨beside.ahead, ?_, beside.mistakes⟩
  change c'.openBlocks + 1 = c.openBlocks + 1 + around
  rw [beside.openBlocks, Nat.add_right_comm]

theorem closeBlock (beside : Beside following around earlier c c') (inside : 0 < c.openBlocks) :
    Beside following around earlier c.closeBlock c'.closeBlock := by
  refine ⟨beside.ahead, ?_, beside.mistakes⟩
  change c'.openBlocks - 1 = c.openBlocks - 1 + around
  rw [beside.openBlocks]
  omega

theorem drop (beside : Beside following around earlier c c')
    (same : leftover (0 < c'.openBlocks) 0 c'.ahead = leftover (0 < c.openBlocks) 0 c.ahead)
    (inside : following = [] ∨ leftover (0 < c.openBlocks) 0 c.ahead ≤ c.ahead.length) :
    Beside following around earlier c.drop c'.drop := by
  refine ⟨?_, beside.openBlocks, beside.mistakes⟩
  change c'.ahead.drop _ = c.ahead.drop _ ++ following
  rw [same, beside.ahead]
  rcases inside with rfl | bound
  · rw [List.append_nil, List.append_nil]
  · exact List.drop_append_of_le_length bound

/-- A malformed statement is left behind alike in both readings, where a block is open in both or in
none. -/
theorem drop_settled (beside : Beside following around earlier c c')
    (alike : 0 < c'.openBlocks ↔ 0 < c.openBlocks)
    (sheltered : following = [] ∨ c.ahead ≠ [] ∧ Settled c.openBlocks c.ahead) :
    Beside following around earlier c.drop c'.drop ∧
      (following = [] ∨ Settled c.drop.openBlocks c.drop.ahead) := by
  have enclosed : decide (0 < c'.openBlocks) = decide (0 < c.openBlocks) := decide_eq_decide.mpr alike
  rcases sheltered with rfl | ⟨nonempty, settled⟩
  · refine ⟨beside.drop ?_ (.inl rfl), .inl rfl⟩
    rw [enclosed, beside.ahead, List.append_nil]
  · have outermost : decide (0 < c.openBlocks) = false → c.openBlocks = 0 := by simp
    rw [← Nat.zero_add c.openBlocks] at settled
    obtain ⟨same, bound, left⟩ := leftover_settled outermost following nonempty settled
    refine ⟨beside.drop ?_ (.inr bound), .inr left⟩
    rw [enclosed, beside.ahead, same]

end Beside

theorem ahead_eq_of_ne_nil {cursor : Cursor} (nonempty : cursor.ahead ≠ []) :
    cursor.ahead = cursor.current :: cursor.ahead.tail := by
  unfold Cursor.current
  cases shape : cursor.ahead with
  | nil => exact absurd shape nonempty
  | cons token rest => rfl

theorem ahead_ne_nil_of_tail {cursor : Cursor} (nonempty : cursor.ahead.tail ≠ []) :
    cursor.ahead ≠ [] := by
  intro empty
  rw [empty] at nonempty
  exact nonempty rfl

/-- A reading beside one that has settled tokens ahead and then more. With nothing more ahead, any
tokens will do. -/
def besides (following : List Token) (around : Nat) (earlier : List Mistake) : Pairing where
  unread c c' := Beside following around earlier c c' ∧
    (following = [] ∨ c.ahead ≠ [] ∧ Settled c.openBlocks c.ahead)
  read c c' := Beside following around earlier c c' ∧
    (following = [] ∨ (c.current.kind ≠ .endOfInput ∧ c.current.kind ≠ .openBrace) ∧
      c.ahead.tail ≠ [] ∧ Settled c.openBlocks c.ahead.tail)
  ended c c' := Beside following around earlier c c' ∧
    (following = [] ∨ c.ahead ≠ [] ∧ Settled c.openBlocks c.ahead.tail)
  refused c c' := Beside following around earlier c c' ∧
    (following = [] ∨ c.ahead ≠ [] ∧ Settled c.openBlocks c.ahead)
  cut c c' := Beside following around earlier c c' ∧
    (following = [] ∨ c.ahead ≠ [] ∧ Settled 0 c.ahead)

theorem besides_steps (following : List Token) (around : Nat) (earlier : List Mistake) :
    (besides following around earlier).Steps where
  current_unread := fun ⟨beside, sheltered⟩ => beside.current (sheltered.imp_right And.left)
  current_read := fun ⟨beside, sheltered⟩ =>
    beside.current (sheltered.imp_right fun shelter => ahead_ne_nil_of_tail shelter.2.1)
  peek_read := fun ⟨beside, sheltered⟩ =>
    (beside.advance (sheltered.imp_right fun shelter => ahead_ne_nil_of_tail shelter.2.1)).current
      (sheltered.imp_right fun shelter => shelter.2.1)
  take := by
    rintro c c' ⟨beside, sheltered⟩ plain
    refine ⟨beside, sheltered.imp_right ?_⟩
    rintro ⟨nonempty, settled⟩
    rw [ahead_eq_of_ne_nil nonempty] at settled
    have present := settled.present _ List.mem_cons_self
    have kinds : c.current.kind ≠ .semicolon ∧ c.current.kind ≠ .openBrace ∧
        c.current.kind ≠ .closeBrace := by
      refine ⟨?_, ?_, ?_⟩ <;> intro kind <;> rw [kind] at plain <;> cases plain
    exact ⟨⟨present, kinds.2.1⟩, settled.more kinds.1, settled.tail kinds.2.1 kinds.2.2⟩
  advance := by
    rintro c c' ⟨beside, sheltered⟩
    have inside := sheltered.imp_right fun shelter => ahead_ne_nil_of_tail shelter.2.1
    exact ⟨beside.advance inside, sheltered.imp_right And.right⟩
  refuse_unread := fun mistake ⟨beside, sheltered⟩ => ⟨beside.record mistake, sheltered⟩
  refuse_read := by
    rintro c c' mistake ⟨beside, sheltered⟩
    refine ⟨beside.record mistake, sheltered.imp_right ?_⟩
    rintro ⟨⟨present, opens⟩, nonempty, settled⟩
    have some_ahead := ahead_ne_nil_of_tail nonempty
    refine ⟨some_ahead, ?_⟩
    change Settled c.openBlocks c.ahead
    rw [ahead_eq_of_ne_nil some_ahead]
    exact settled.cons nonempty present opens
  finish := fun ⟨beside, sheltered⟩ =>
    ⟨beside, sheltered.imp_right fun shelter => ⟨ahead_ne_nil_of_tail shelter.2.1, shelter.2.2⟩⟩
  finish_semicolon := by
    rintro c c' ⟨beside, sheltered⟩ ends
    have inside := sheltered.imp_right fun shelter => ahead_ne_nil_of_tail shelter.2.1
    refine ⟨beside.advance inside, sheltered.imp_right ?_⟩
    rintro ⟨-, nonempty, settled⟩
    have shape := @ahead_eq_of_ne_nil c.advance nonempty
    refine ⟨nonempty, ?_⟩
    have whole : Settled c.openBlocks (c.peek :: c.ahead.tail.tail) := shape ▸ settled
    exact whole.tail (by rw [ends]; decide) (by rw [ends]; decide)
  tooDeep := fun ⟨beside, sheltered⟩ =>
    ⟨beside, sheltered.imp_right fun shelter => ⟨shelter.1, shelter.2.mono (Nat.zero_le _)⟩⟩
  enter := by
    rintro c c' ⟨beside, sheltered⟩ opens
    refine ⟨(beside.advance (sheltered.imp_right And.left)).openBlock, sheltered.imp_right ?_⟩
    rintro ⟨nonempty, settled⟩
    rw [ahead_eq_of_ne_nil nonempty] at settled
    exact ⟨settled.more (by rw [opens]; decide), settled.tail_openBrace opens⟩
  inside := by
    rintro c c' ⟨beside, -⟩ inside
    rw [beside.openBlocks]
    omega
  onward := by
    rintro c c' ⟨beside, sheltered⟩ inside
    refine ⟨beside.advance (sheltered.imp_right And.left), sheltered.imp_right ?_⟩
    rintro ⟨-, settled⟩
    exact ⟨settled.ne_nil inside, settled⟩
  skip := by
    rintro c c' ⟨beside, sheltered⟩ inside
    have alike : 0 < c'.openBlocks ↔ 0 < c.openBlocks := by
      rw [beside.openBlocks]
      omega
    obtain ⟨left, settled⟩ := beside.drop_settled alike sheltered
    exact ⟨left, settled.imp_right fun settled => ⟨settled.ne_nil inside, settled⟩⟩
  leave := by
    rintro c c' ⟨beside, sheltered⟩ inside closes
    refine ⟨beside.closeBlock inside, sheltered.imp_right ?_⟩
    rintro ⟨nonempty, settled⟩
    rw [ahead_eq_of_ne_nil nonempty] at settled
    have kind : c.closeBlock.current.kind = .closeBrace := closes
    refine ⟨?_, settled.more (by rw [closes]; decide), settled.tail_closeBrace closes⟩
    rw [kind]
    decide
  unclosed := by
    rintro c c' mistake ⟨beside, sheltered⟩ inside
    refine ⟨(beside.closeBlock inside).record mistake, sheltered.imp_right ?_⟩
    rintro ⟨nonempty, settled⟩
    exact ⟨nonempty, settled.mono (Nat.sub_le _ _)⟩

end MonkeyLang.Grammar
