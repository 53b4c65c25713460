import MonkeyLang.Proofs.Token.Joined

/-!
Text divided into tokens and the layout between them. There is one way to do so in which every token is
as long as it can be, nothing is lost in it, and it is the one that reading comes to
(`divided_uniquely`).
-/

namespace MonkeyLang.Token

/-- A token with the layout before it. -/
structure Piece where
  layout : List Char
  token : Token

def Piece.text (piece : Piece) : List Char := piece.layout ++ piece.token.literal.toList

/-- The text of pieces, with layout behind the last one. -/
def spread (pieces : List Piece) (last : List Char) : List Char :=
  pieces.flatMap Piece.text ++ last

theorem spread_cons (piece : Piece) (pieces : List Piece) (last : List Char) :
    spread (piece :: pieces) last =
      piece.layout ++ (piece.token.literal.toList ++ spread pieces last) := by
  simp only [spread, List.flatMap_cons, Piece.text, List.append_assoc]

/-- Text divided into tokens that do not go on with the character after them, with nothing but layout
before, between and after them. -/
inductive Divides : List Char → List Piece → List Char → Prop
  | blank {last : List Char} (blank : ∀ c ∈ last, isLayout c) : Divides last [] last
  | piece {layout : List Char} (blank : ∀ c ∈ layout, isLayout c) {token : Token}
      (lexical : token.Lexical) {rest last : List Char} {pieces : List Piece}
      (whole : ∀ c ∈ rest.head?, ¬Extends token.literal.toList c)
      (further : Divides rest pieces last) :
      Divides (layout ++ token.literal.toList ++ rest) (⟨layout, token⟩ :: pieces) last

/-- The tokens of pieces, each with the place where it ends. -/
def placed : Nat → List Piece → List (Token × Nat)
  | _, [] => []
  | start, piece :: rest =>
    (piece.token, start + piece.text.length) :: placed (start + piece.text.length) rest

theorem next_layouts {layout : List Char} (blank : ∀ c ∈ layout, isLayout c) (rest : List Char) :
    next (layout ++ rest) = next rest := by
  rw [next, List.dropWhile_append_of_pos blank, next]

theorem next_blank {last : List Char} (blank : ∀ c ∈ last, isLayout c) :
    next last = (sentinel, []) := by
  have all := next_layouts blank []
  rw [List.append_nil] at all
  exact all

theorem next_piece {layout : List Char} (blank : ∀ c ∈ layout, isLayout c) {token : Token}
    (lexical : token.Lexical) {rest : List Char}
    (whole : ∀ c ∈ rest.head?, ¬Extends token.literal.toList c) :
    next (layout ++ token.literal.toList ++ rest) = (token, rest) := by
  rw [List.append_assoc, next_layouts blank, next_literal lexical whole]

namespace Divides

variable {text last last' : List Char} {pieces pieces' : List Piece}

theorem text_eq (divides : Divides text pieces last) : text = spread pieces last := by
  induction divides with
  | blank => rfl
  | piece blank lexical whole further ih => rw [spread_cons, ← ih, List.append_assoc]

theorem scan_eq (divides : Divides text pieces last) : scan text = pieces.map Piece.token := by
  induction divides with
  | blank blank => exact scan_layouts blank
  | piece blank lexical whole further ih =>
      rw [scan_next lexical (next_piece blank lexical whole), ih, List.map_cons]

/-- The next token decides where the first piece ends, and so all of the pieces. -/
theorem unique (divides : Divides text pieces last) (divides' : Divides text pieces' last') :
    pieces' = pieces ∧ last' = last := by
  induction divides generalizing pieces' with
  | blank blank =>
      have read := next_blank blank
      cases divides' with
      | blank => exact ⟨rfl, rfl⟩
      | piece blank' lexical' whole' further' =>
          rw [next_piece blank' lexical' whole'] at read
          cases read
          exact absurd rfl lexical'.kind_ne_endOfInput
  | @piece layout blank token lexical rest last pieces whole further ih =>
      have read := next_piece blank lexical whole
      generalize shape : layout ++ token.literal.toList ++ rest = text at read divides'
      cases divides' with
      | blank blank' =>
          rw [next_blank blank'] at read
          cases read
          exact absurd rfl lexical.kind_ne_endOfInput
      | piece blank' lexical' whole' further' =>
          rw [next_piece blank' lexical' whole'] at read
          cases read
          obtain ⟨rfl, rfl⟩ := ih further'
          have same := List.append_cancel_right (List.append_cancel_right shape)
          rw [same]
          exact ⟨rfl, rfl⟩

end Divides

theorem head?_dropWhile {p : Char → Bool} {text : List Char} {c : Char}
    (first : (text.dropWhile p).head? = some c) : ¬p c := by
  have outside := List.head?_dropWhile_not p text
  rw [first] at outside
  exact Bool.eq_false_iff.mp outside

theorem not_extends {c d : Char} {others : List Char} (letter : isLetter c → ¬isLetter d)
    (digit : isDigit c → ¬isDigit d)
    (equals : c :: others = ['='] ∨ c :: others = ['!'] → d ≠ '=') : ¬Extends (c :: others) d := by
  rintro (⟨inside, letters⟩ | ⟨inside, digits⟩ | ⟨same, symbol⟩)
  · exact letter (letters c List.mem_cons_self) inside
  · exact digit (digits c List.mem_cons_self) inside
  · exact equals symbol same

/-- A token does not go on with the character behind it. -/
theorem read_whole (c : Char) (rest : List Char) :
    ∀ d ∈ (read c rest).2.head?, ¬Extends (read c rest).1.literal.toList d := by
  intro d behind
  unfold read at behind ⊢
  split
  · rename_i kind found
    rw [String.toList_ofList]
    rcases pairKind?_cases found with ⟨rfl, _⟩ | ⟨rfl, _⟩
    · exact not_extends (absurd · (by decide)) (absurd · (by decide)) (by simp)
    · exact not_extends (absurd · (by decide)) (absurd · (by decide)) (by simp)
  · rename_i unpaired
    simp only [unpaired] at behind
    split
    · rename_i kind found
      simp only [found] at behind
      rw [String.toList_ofList]
      apply not_extends
      · intro letter
        rw [symbolKind?_eq_none_of_letter letter] at found
        cases found
      · intro digit
        rw [symbolKind?_eq_none_of_digit digit] at found
        cases found
      · rintro symbol rfl
        rw [pairKind?, if_pos (Option.mem_def.mp behind)] at unpaired
        rcases symbol with same | same <;> cases same <;> cases unpaired
    · rename_i unlisted
      simp only [unlisted] at behind
      have symbol (others : List Char) (same : c :: others = ['='] ∨ c :: others = ['!']) :
          d ≠ '=' := by
        rcases same with same | same <;> cases same <;> cases unlisted
      by_cases letter : isLetter c
      · simp only [if_pos letter] at behind ⊢
        rw [String.toList_ofList]
        exact not_extends (fun _ => head?_dropWhile behind)
          (fun digit => absurd letter (not_letter_of_digit digit)) (symbol _)
      · simp only [if_neg letter] at behind ⊢
        by_cases digit : isDigit c
        · simp only [if_pos digit] at behind ⊢
          rw [String.toList_ofList]
          exact not_extends (absurd · letter) (fun _ => head?_dropWhile behind) (symbol _)
        · simp only [if_neg digit]
          rw [String.toList_ofList]
          exact not_extends (absurd · letter) (absurd · digit) (symbol _)

/-- Where the text of a token starts with a shorter one, that goes on with the character behind it. -/
theorem Lexical.extends {longer : Token} (lexical : longer.Lexical) {literal more : List Char}
    {d : Char} (nonempty : literal ≠ []) (shape : longer.literal.toList = literal ++ d :: more) :
    Extends literal d := by
  obtain ⟨c, others, rfl⟩ := List.exists_cons_of_ne_nil nonempty
  rw [List.cons_append] at shape
  cases lexical with
  | symbol found => simp at shape
  | illegal => simp at shape
  | pair found =>
      rw [String.toList_ofList] at shape
      obtain ⟨rfl, behind⟩ := List.cons.inj shape
      obtain ⟨rfl, same⟩ | ⟨_, wrong⟩ := List.singleton_eq_append_iff.mp behind
      · cases same
        rcases pairKind?_cases found with ⟨rfl, _⟩ | ⟨rfl, _⟩
        · exact .inr (.inr ⟨rfl, .inl rfl⟩)
        · exact .inr (.inr ⟨rfl, .inr rfl⟩)
      · cases wrong
  | word initial following =>
      rw [String.toList_ofList] at shape
      obtain ⟨rfl, rfl⟩ := List.cons.inj shape
      obtain ⟨inside, behind⟩ := List.forall_mem_append.mp following
      exact .inl ⟨behind d List.mem_cons_self, List.forall_mem_cons.mpr ⟨initial, inside⟩⟩
  | number initial following =>
      rw [String.toList_ofList] at shape
      obtain ⟨rfl, rfl⟩ := List.cons.inj shape
      obtain ⟨inside, behind⟩ := List.forall_mem_append.mp following
      exact .inr (.inl ⟨behind d List.mem_cons_self, List.forall_mem_cons.mpr ⟨initial, inside⟩⟩)

theorem Lexical.literal_ne_nil {token : Token} (lexical : token.Lexical) :
    token.literal.toList ≠ [] := by
  cases lexical <;> simp

/-- No text of a token is longer than one that does not go on with the character behind it. -/
theorem Lexical.length_le {token other : Token} (lexical : token.Lexical)
    (lexical' : other.Lexical) {rest : List Char}
    (whole : ∀ c ∈ rest.head?, ¬Extends token.literal.toList c)
    (fits : other.literal.toList <+: token.literal.toList ++ rest) :
    other.literal.toList.length ≤ token.literal.toList.length := by
  obtain ⟨behind, shape⟩ := fits
  rcases List.append_eq_append_iff.mp shape with ⟨more, same, _⟩ | ⟨_ | ⟨d, more⟩, same, rfl⟩
  · rw [same, List.length_append]
    exact Nat.le_add_right _ _
  · rw [same, List.append_nil]
  · exact absurd (lexical'.extends lexical.literal_ne_nil same) (whole d rfl)

theorem exists_divides (text : List Char) : ∃ pieces last, Divides text pieces last := by
  induction text using scan_induction with
  | nil => exact ⟨[], [], .blank (List.forall_mem_nil _)⟩
  | layout c rest layout ih =>
      obtain ⟨pieces, last, divides⟩ := ih
      cases divides with
      | blank blank => exact ⟨[], c :: rest, .blank (List.forall_mem_cons.mpr ⟨layout, blank⟩)⟩
      | piece blank lexical whole further =>
          exact ⟨_, last, .piece (List.forall_mem_cons.mpr ⟨layout, blank⟩) lexical whole further⟩
  | read c rest shown ih =>
      obtain ⟨pieces, last, divides⟩ := ih
      have piece := Divides.piece (List.forall_mem_nil _) (lexical_read shown) (read_whole c rest)
        divides
      rw [List.nil_append, read_literal] at piece
      exact ⟨_, last, piece⟩

theorem reads_blank {last : List Char} (blank : ∀ c ∈ last, isLayout c) (total count : Nat) :
    reads total count last = List.replicate count (sentinel, total) := by
  induction count generalizing last with
  | zero => rfl
  | succ count ih =>
      rw [reads, next_blank blank, List.replicate_succ]
      exact congrArg _ (ih (List.forall_mem_nil _))

namespace Divides

variable {text last : List Char} {pieces : List Piece}

theorem reads_eq (divides : Divides text pieces last) (start count : Nat) :
    reads (start + text.length) count text =
      (placed start pieces).take count ++
        List.replicate (count - pieces.length) (sentinel, start + text.length) := by
  induction divides generalizing start count with
  | blank blank =>
      rw [reads_blank blank, placed, List.take_nil, List.nil_append, List.length_nil, Nat.sub_zero]
  | @piece layout blank token lexical rest last pieces whole further ih =>
      cases count with
      | zero =>
          rw [reads, List.take_zero, Nat.zero_sub, List.replicate_zero, List.append_nil]
      | succ count =>
          have total : start + (layout ++ token.literal.toList ++ rest).length =
              start + (Piece.mk layout token).text.length + rest.length := by
            rw [List.length_append, Nat.add_assoc, Piece.text]
          rw [reads, next_piece blank lexical whole, total]
          simp only [ih, Nat.add_sub_cancel, placed, List.take_succ_cons, List.length_cons,
            Nat.add_sub_add_right, List.cons_append]

/-- No token is longer at the place of one of the pieces. -/
theorem longest (divides : Divides text pieces last) {front back : List Piece} {piece : Piece}
    (shape : pieces = front ++ piece :: back) {other : Token} (lexical : other.Lexical)
    (fits : other.literal.toList <+: piece.token.literal.toList ++ spread back last) :
    other.literal.toList.length ≤ piece.token.literal.toList.length := by
  induction front generalizing text pieces with
  | nil =>
      subst shape
      cases divides with
      | piece blank lexical' whole further =>
          rw [← further.text_eq] at fits
          exact lexical'.length_le lexical whole fits
  | cons first front ih =>
      subst shape
      cases divides with
      | piece blank lexical' whole further => exact ih further rfl

end Divides

/-- A text can be divided in one way, which is that of reading: each of its tokens ends where its
piece does, and past them there is nothing but the sentinel at the end of the text. No token could be
longer. -/
theorem divided_uniquely (text : List Char) :
    ∃ pieces last, Divides text pieces last ∧
      (∀ pieces' last', Divides text pieces' last' → pieces' = pieces ∧ last' = last) ∧
      text = spread pieces last ∧ scan text = pieces.map Piece.token ∧
      (∀ count, reads text.length count text =
        (placed 0 pieces).take count ++
          List.replicate (count - pieces.length) (sentinel, text.length)) ∧
      ∀ front piece back, pieces = front ++ piece :: back → ∀ other : Token, other.Lexical →
        other.literal.toList <+: piece.token.literal.toList ++ spread back last →
          other.literal.toList.length ≤ piece.token.literal.toList.length := by
  obtain ⟨pieces, last, divides⟩ := exists_divides text
  refine ⟨pieces, last, divides, fun _ _ => divides.unique, divides.text_eq, divides.scan_eq, ?_, ?_⟩
  · intro count
    have read := divides.reads_eq 0 count
    rw [Nat.zero_add] at read
    exact read
  · intro front piece back shape other lexical fits
    exact divides.longest shape lexical fits

end MonkeyLang.Token
