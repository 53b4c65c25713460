import Mathlib.Data.List.TakeWhile
import MonkeyLang.Token.Scan

/-!
The tokens that text is read as, and what has to follow the text of a token for it to be read alone.
-/

namespace MonkeyLang.Token

/-- The tokens that can be read, each with the text it is read from. -/
inductive Lexical : Token → Prop
  | symbol {c : Char} {kind : Kind} (found : symbolKind? c = some kind) :
      Lexical ⟨kind, String.ofList [c]⟩
  | pair {c : Char} {kind : Kind} (found : pairKind? c ['='] = some kind) :
      Lexical ⟨kind, String.ofList [c, '=']⟩
  | word {c : Char} {letters : List Char} (initial : isLetter c)
      (others : ∀ letter ∈ letters, isLetter letter) :
      Lexical ⟨Kind.ofWord (String.ofList (c :: letters)), String.ofList (c :: letters)⟩
  | number {c : Char} {digits : List Char} (initial : isDigit c)
      (others : ∀ digit ∈ digits, isDigit digit) : Lexical ⟨.number, String.ofList (c :: digits)⟩
  | illegal {c : Char} (layout : ¬isLayout c) (symbol : symbolKind? c = none)
      (letter : ¬isLetter c) (digit : ¬isDigit c) : Lexical ⟨.illegal, String.ofList [c]⟩

theorem lexical_number {digits : List Char} (nonempty : digits ≠ [])
    (decimal : ∀ c ∈ digits, isDigit c) : Lexical ⟨.number, String.ofList digits⟩ := by
  obtain ⟨c, run, rfl⟩ := List.exists_cons_of_ne_nil nonempty
  obtain ⟨initial, others⟩ := List.forall_mem_cons.mp decimal
  exact .number initial others

theorem pairKind?_eq_of_some {c : Char} {rest : List Char} {kind : Kind}
    (found : pairKind? c rest = some kind) :
    rest = '=' :: rest.tail ∧ pairKind? c ['='] = some kind := by
  unfold pairKind? at found
  split at found
  · rename_i equals
    constructor
    · cases rest with
      | nil => cases equals
      | cons first rest =>
          simp only [List.head?_cons, Option.some.injEq] at equals
          rw [equals, List.tail_cons]
    · simpa [pairKind?] using found
  · cases found

theorem lexical_read {c : Char} {rest : List Char} (shown : ¬isLayout c) :
    Lexical (read c rest).1 := by
  unfold read
  split
  · rename_i kind found
    exact .pair (pairKind?_eq_of_some found).2
  · split
    · rename_i kind found
      exact .symbol found
    · rename_i symbol
      by_cases letter : isLetter c
      · rw [if_pos letter]
        exact .word letter fun _ member => List.mem_takeWhile_imp member
      · rw [if_neg letter]
        by_cases digit : isDigit c
        · rw [if_pos digit]
          exact .number digit fun _ member => List.mem_takeWhile_imp member
        · rw [if_neg digit]
          exact .illegal shown symbol letter digit

theorem next_layout {c : Char} (layout : isLayout c) (rest : List Char) :
    next (c :: rest) = next rest := by
  rw [next, List.dropWhile_cons_of_pos layout, next]

theorem next_read {c : Char} (shown : ¬isLayout c) (rest : List Char) :
    next (c :: rest) = read c rest := by
  rw [next, List.dropWhile_cons_of_neg shown]

theorem scan_nil : scan [] = [] := by
  rw [scan]
  rfl

theorem scan_layout {c : Char} (layout : isLayout c) (rest : List Char) :
    scan (c :: rest) = scan rest := by
  conv => lhs; rw [scan, next_layout layout]
  conv => rhs; rw [scan]

theorem scan_read {c : Char} (shown : ¬isLayout c) (rest : List Char) :
    scan (c :: rest) = (read c rest).1 :: scan (read c rest).2 := by
  rw [scan, next_read shown, dif_pos (read_kind_ne c rest)]

theorem lexical_next {text : List Char} (more : (next text).1.kind ≠ .endOfInput) :
    (next text).1.Lexical := by
  induction text with
  | nil => exact absurd rfl more
  | cons c rest ih =>
      by_cases layout : isLayout c
      · rw [next_layout layout] at more ⊢
        exact ih more
      · rw [next_read layout]
        exact lexical_read layout

theorem lexical_of_mem_scan {text : List Char} {token : Token} (member : token ∈ scan text) :
    token.Lexical := by
  induction text using scan.induct with
  | case1 text more ih =>
      rw [scan, dif_pos more] at member
      rcases List.mem_cons.mp member with rfl | later
      · exact lexical_next more
      · exact ih later
  | case2 text last =>
      rw [scan, dif_neg last] at member
      cases member

/-- Text that no token can reach into from before it. -/
def Edge (text : List Char) : Prop :=
  ∀ c ∈ text.head?, ¬isLetter c ∧ ¬isDigit c ∧ c ≠ '='

theorem edge_nil : Edge [] := by
  intro c member
  cases member

theorem edge_cons {c : Char} (plain : ¬isLetter c ∧ ¬isDigit c ∧ c ≠ '=') (rest : List Char) :
    Edge (c :: rest) := by
  intro first member
  cases member
  exact plain

theorem takeWhile_run {p : Char → Bool} {run rest : List Char} (inside : ∀ c ∈ run, p c)
    (outside : ∀ c ∈ rest.head?, ¬p c) : (run ++ rest).takeWhile p = run := by
  rw [List.takeWhile_append_of_pos inside]
  cases rest with
  | nil => simp
  | cons c rest => rw [List.takeWhile_cons_of_neg (outside c rfl), List.append_nil]

theorem dropWhile_run {p : Char → Bool} {run rest : List Char} (inside : ∀ c ∈ run, p c)
    (outside : ∀ c ∈ rest.head?, ¬p c) : (run ++ rest).dropWhile p = rest := by
  rw [List.dropWhile_append_of_pos inside]
  cases rest with
  | nil => rfl
  | cons c rest => rw [List.dropWhile_cons_of_neg (outside c rfl)]

theorem symbolKind?_eq_none {p : Char → Bool}
    (apart : "=+-!*/<>,;()\x7b\x7d".toList.all fun c => !p c) {c : Char} (holds : p c) :
    symbolKind? c = none := by
  have spared {d : Char} (listed : d ∈ "=+-!*/<>,;()\x7b\x7d".toList) : ¬p d := by
    simpa using List.all_eq_true.mp apart d listed
  unfold symbolKind?
  split <;> first | rfl | exact absurd holds (spared (by decide))

theorem pairKind?_eq_none {c : Char} (plain : symbolKind? c = none) (rest : List Char) :
    pairKind? c rest = none := by
  unfold pairKind?
  split
  · rw [if_neg, if_neg]
    · rintro rfl
      cases plain
    · rintro rfl
      cases plain
  · rfl

theorem not_layout {p : Char → Bool} (apart : [' ', '\t', '\n', '\r'].all fun c => !p c)
    {c : Char} (holds : p c) : ¬isLayout c := by
  intro layout
  simp only [isLayout, Bool.or_eq_true, decide_eq_true_eq, or_assoc] at layout
  have listed : c ∈ [' ', '\t', '\n', '\r'] := by simpa using layout
  have spared : ¬p c := by simpa using List.all_eq_true.mp apart c listed
  exact spared holds

theorem plain_of_layout {c : Char} (layout : isLayout c) : ¬isLetter c ∧ ¬isDigit c ∧ c ≠ '=' := by
  refine ⟨fun letter => not_layout (by decide) letter layout,
    fun digit => not_layout (by decide) digit layout, ?_⟩
  rintro rfl
  exact absurd layout (by decide)

theorem symbolKind?_eq_none_of_letter {c : Char} (letter : isLetter c) : symbolKind? c = none :=
  symbolKind?_eq_none (by decide) letter

theorem symbolKind?_eq_none_of_digit {c : Char} (digit : isDigit c) : symbolKind? c = none :=
  symbolKind?_eq_none (by decide) digit

theorem symbolKind?_eq_none_of_layout {c : Char} (layout : isLayout c) : symbolKind? c = none :=
  symbolKind?_eq_none (by decide) layout

theorem not_letter_of_digit {c : Char} (digit : isDigit c) : ¬isLetter c := by
  simp only [isDigit, isLetter, Bool.and_eq_true, Bool.or_eq_true, decide_eq_true_eq,
    Char.le_def, UInt32.le_iff_toNat_le] at digit ⊢
  rintro ((⟨above, below⟩ | ⟨above, below⟩) | rfl) <;> simp at * <;> omega

theorem not_layout_of_symbol {c : Char} {kind : Kind} (found : symbolKind? c = some kind) :
    ¬isLayout c := by
  intro layout
  rw [symbolKind?_eq_none_of_layout layout] at found
  cases found

theorem scan_symbol {c : Char} {kind : Kind} {rest : List Char}
    (found : symbolKind? c = some kind) (alone : pairKind? c rest = none) :
    scan (c :: rest) = ⟨kind, String.ofList [c]⟩ :: scan rest := by
  rw [scan_read (not_layout_of_symbol found)]
  simp only [read, alone, found]

/-- Whether a literal goes on with a character: a run of letters or of digits with one more, or one of
the symbols that an equals sign makes an operator of two characters. -/
def Extends (literal : List Char) (c : Char) : Prop :=
  (isLetter c ∧ ∀ letter ∈ literal, isLetter letter) ∨
    (isDigit c ∧ ∀ digit ∈ literal, isDigit digit) ∨
      (c = '=' ∧ (literal = ['='] ∨ literal = ['!']))

theorem Edge.not_extends {rest : List Char} (edge : Edge rest) (literal : List Char) :
    ∀ c ∈ rest.head?, ¬Extends literal c := by
  intro c member extended
  obtain ⟨letter, digit, equals⟩ := edge c member
  rcases extended with ⟨wrong, _⟩ | ⟨wrong, _⟩ | ⟨wrong, _⟩
  · exact letter wrong
  · exact digit wrong
  · exact equals wrong

theorem pairKind?_cases {c : Char} {rest : List Char} {kind : Kind}
    (found : pairKind? c rest = some kind) :
    (c = '=' ∧ kind = .equal) ∨ (c = '!' ∧ kind = .unequal) := by
  unfold pairKind? at found
  grind

theorem pairKind?_eq_none_of_whole {c : Char} {rest : List Char}
    (whole : ∀ next ∈ rest.head?, ¬Extends [c] next) : pairKind? c rest = none := by
  cases found : pairKind? c rest with
  | none => rfl
  | some kind =>
      have first : rest.head? = some '=' := by
        rw [(pairKind?_eq_of_some found).1]
        rfl
      have symbol : [c] = ['='] ∨ [c] = ['!'] := by
        rcases pairKind?_cases found with ⟨rfl, _⟩ | ⟨rfl, _⟩
        · exact .inl rfl
        · exact .inr rfl
      exact absurd (.inr (.inr ⟨rfl, symbol⟩)) (whole '=' first)

/-- The text of a token is read as that token, unless it goes on with the character after it. -/
theorem next_literal {token : Token} (lexical : token.Lexical) {rest : List Char}
    (whole : ∀ c ∈ rest.head?, ¬Extends token.literal.toList c) :
    next (token.literal.toList ++ rest) = (token, rest) := by
  cases lexical with
  | @symbol c kind found =>
      rw [String.toList_ofList] at whole ⊢
      rw [List.cons_append, List.nil_append, next_read (not_layout_of_symbol found)]
      simp only [read, pairKind?_eq_none_of_whole whole, found]
  | @pair c kind found =>
      have shown : ¬isLayout c := fun layout => by
        rw [pairKind?_eq_none (symbolKind?_eq_none_of_layout layout)] at found
        cases found
      have read_pair : pairKind? c ('=' :: rest) = some kind := found
      rw [String.toList_ofList, List.cons_append, next_read shown]
      simp only [read, List.cons_append, List.nil_append, read_pair, List.tail_cons]
  | @word c letters initial others =>
      have symbol := symbolKind?_eq_none_of_letter initial
      have stopped : ∀ next ∈ rest.head?, ¬isLetter next := by
        intro next member letter
        apply whole next member
        rw [String.toList_ofList]
        exact .inl ⟨letter, List.forall_mem_cons.mpr ⟨initial, others⟩⟩
      rw [String.toList_ofList, List.cons_append, next_read (not_layout (by decide) initial)]
      simp only [read, pairKind?_eq_none symbol, symbol, if_pos initial]
      rw [takeWhile_run others stopped, dropWhile_run others stopped]
  | @number c digits initial others =>
      have symbol := symbolKind?_eq_none_of_digit initial
      have stopped : ∀ next ∈ rest.head?, ¬isDigit next := by
        intro next member digit
        apply whole next member
        rw [String.toList_ofList]
        exact .inr (.inl ⟨digit, List.forall_mem_cons.mpr ⟨initial, others⟩⟩)
      rw [String.toList_ofList, List.cons_append, next_read (not_layout (by decide) initial)]
      simp only [read, pairKind?_eq_none symbol, symbol, if_neg (not_letter_of_digit initial),
        if_pos initial]
      rw [takeWhile_run others stopped, dropWhile_run others stopped]
  | illegal shown symbol letter digit =>
      rw [String.toList_ofList, List.cons_append, next_read shown]
      simp only [read, pairKind?_eq_none symbol, symbol, if_neg letter, if_neg digit,
        List.nil_append]

theorem kind_of_symbol {c : Char} {kind : Kind} (found : symbolKind? c = some kind) :
    kind ≠ .endOfInput ∧ kind ≠ .number := by
  unfold symbolKind? at found
  split at found <;> cases found <;> decide

theorem kind_of_pair {c : Char} {rest : List Char} {kind : Kind}
    (found : pairKind? c rest = some kind) : kind ≠ .endOfInput ∧ kind ≠ .number := by
  rcases pairKind?_cases found with ⟨_, rfl⟩ | ⟨_, rfl⟩ <;> decide

theorem Lexical.kind_ne_endOfInput {token : Token} (lexical : token.Lexical) :
    token.kind ≠ .endOfInput := by
  cases lexical with
  | symbol found => exact (kind_of_symbol found).1
  | pair found => exact (kind_of_pair found).1
  | word initial others => exact Kind.ofWord_ne _
  | number initial others => simp
  | illegal => simp

theorem scan_next {text rest : List Char} {token : Token} (lexical : token.Lexical)
    (first : next text = (token, rest)) : scan text = token :: scan rest := by
  have more : (next text).1.kind ≠ .endOfInput := by
    rw [first]
    exact lexical.kind_ne_endOfInput
  rw [scan, dif_pos more, first]

/-- The text of a token is read as that token, whatever comes after it at an edge. -/
theorem scan_literal {token : Token} (lexical : token.Lexical) {rest : List Char}
    (edge : Edge rest) : scan (token.literal.toList ++ rest) = token :: scan rest :=
  scan_next lexical (next_literal lexical (edge.not_extends _))

/-- The one text of a kind that is not a name, a numeral or illegal. -/
def Kind.spelling : Kind → String
  | fnWord => "fn"
  | letWord => "let"
  | trueWord => "true"
  | falseWord => "false"
  | ifWord => "if"
  | elseWord => "else"
  | returnWord => "return"
  | kind => kind.symbol

theorem spelling_of_symbol {c : Char} {kind : Kind} (found : symbolKind? c = some kind) :
    String.ofList [c] = kind.spelling := by
  unfold symbolKind? at found
  split at found <;> cases found <;> rfl

theorem spelling_of_pair {c : Char} {kind : Kind} (found : pairKind? c ['='] = some kind) :
    String.ofList [c, '='] = kind.spelling := by
  rcases pairKind?_cases found with ⟨rfl, rfl⟩ | ⟨rfl, rfl⟩ <;> rfl

theorem spelling_of_word {word : String} (reserved : Kind.ofWord word ≠ .name) :
    word = (Kind.ofWord word).spelling := by
  unfold Kind.ofWord at reserved ⊢
  split
  all_goals first | rfl | simp_all

theorem Lexical.literal_eq {token : Token} (lexical : token.Lexical)
    (reserved : token.kind ∉ [.name, .number, .illegal]) :
    token.literal = token.kind.spelling := by
  simp only [List.mem_cons, List.not_mem_nil, or_false, not_or] at reserved
  obtain ⟨name, number, illegal⟩ := reserved
  cases lexical with
  | symbol found => exact spelling_of_symbol found
  | pair found => exact spelling_of_pair found
  | word initial others => exact spelling_of_word name
  | number initial others => exact absurd rfl number
  | illegal => exact absurd rfl illegal

/-- The token of a kind that has one text. -/
def fixed (kind : Kind) : Token := ⟨kind, kind.spelling⟩

theorem Lexical.eq_fixed {token : Token} (lexical : token.Lexical) {kind : Kind}
    (same : token.kind = kind) (reserved : kind ∉ [.name, .number, .illegal]) :
    token = fixed kind := by
  rw [← same] at reserved ⊢
  have literal := lexical.literal_eq reserved
  cases token
  rw [fixed, ← literal]

theorem read_equals (rest : List Char) :
    (read '=' rest).1.kind = .equal ∨ (read '=' rest).1.kind = .assign := by
  unfold read pairKind?
  by_cases doubled : rest.head? = some '='
  · simp [doubled]
  · simp [doubled, symbolKind?]

theorem scan_space (rest : List Char) : scan (' ' :: rest) = scan rest :=
  scan_layout (by decide) rest

/-- A symbol that starts no operator of two characters is read alone. -/
theorem scan_fixed {c : Char} {kind : Kind} (found : symbolKind? c = some kind)
    (equals : c ≠ '=') (bang : c ≠ '!') (rest : List Char) :
    scan (c :: rest) = fixed kind :: scan rest := by
  have alone : pairKind? c rest = none := by
    rw [pairKind?, if_neg equals, if_neg bang, ite_self]
  rw [scan_symbol found alone, spelling_of_symbol found]
  rfl

theorem scan_openParen (rest : List Char) : scan ('(' :: rest) = fixed .openParen :: scan rest :=
  scan_fixed rfl (by decide) (by decide) rest

theorem scan_closeParen (rest : List Char) : scan (')' :: rest) = fixed .closeParen :: scan rest :=
  scan_fixed rfl (by decide) (by decide) rest

theorem scan_spaced {token : Token} (lexical : token.Lexical) (rest : List Char) :
    scan (token.literal.toList ++ ' ' :: rest) = token :: scan rest := by
  rw [scan_literal lexical (edge_cons (by decide) rest), scan_space]

theorem Lexical.digits {token : Token} (lexical : token.Lexical) (number : token.kind = .number) :
    token.literal.toList ≠ [] ∧ ∀ c ∈ token.literal.toList, isDigit c := by
  cases lexical with
  | symbol found => exact absurd number (kind_of_symbol found).2
  | pair found => exact absurd number (kind_of_pair found).2
  | @word c letters initial others =>
      simp only [Kind.ofWord] at number
      split at number <;> cases number
  | @number c run initial others =>
      rw [String.toList_ofList]
      constructor
      · exact List.cons_ne_nil _ _
      · intro digit member
        rcases List.mem_cons.mp member with rfl | later
        · exact initial
        · exact others digit later
  | illegal => cases number

end MonkeyLang.Token
