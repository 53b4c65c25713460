import MonkeyLang.Proofs.Token.Lexical

/-!
Text written behind other text. No token reaches over from one into the other where the last token of
the first is a semicolon (`scan_append`), or where the second starts at an edge (`scan_edge`).
-/

namespace MonkeyLang.Token

/-- Text is read by layout and tokens. -/
@[elab_as_elim]
theorem scan_induction {motive : List Char → Prop} (nil : motive [])
    (layout : ∀ c rest, isLayout c → motive rest → motive (c :: rest))
    (read : ∀ c rest, ¬isLayout c → motive (read c rest).2 → motive (c :: rest))
    (text : List Char) : motive text := by
  induction size : text.length using Nat.strong_induction_on generalizing text with
  | _ size' ih =>
      cases text with
      | nil => exact nil
      | cons c rest =>
          rw [List.length_cons] at size
          by_cases blank : isLayout c
          · exact layout c rest blank (ih rest.length (by omega) rest rfl)
          · have bound := read_length_le c rest
            exact read c rest blank (ih _ (by omega) _ rfl)

theorem scan_layouts {layout : List Char} (layouts : ∀ c ∈ layout, isLayout c) : scan layout = [] := by
  induction layout with
  | nil => exact scan_nil
  | cons c rest ih =>
      obtain ⟨first, others⟩ := List.forall_mem_cons.mp layouts
      rw [scan_layout first, ih others]

theorem edge_layouts {layout : List Char} (layouts : ∀ c ∈ layout, isLayout c) : Edge layout :=
  fun c first => plain_of_layout (layouts c (List.mem_of_mem_head? first))

theorem takeWhile_append_of_more {p : Char → Bool} {run : List Char} (more : run.dropWhile p ≠ [])
    (following : List Char) : (run ++ following).takeWhile p = run.takeWhile p := by
  rw [List.takeWhile_append, if_neg]
  intro whole
  apply more
  have parts := congrArg List.length (List.takeWhile_append_dropWhile (p := p) (l := run))
  rw [List.length_append, whole] at parts
  exact List.length_eq_zero_iff.mp (by omega)

theorem dropWhile_append_of_more {p : Char → Bool} {run : List Char} (more : run.dropWhile p ≠ [])
    (following : List Char) : (run ++ following).dropWhile p = run.dropWhile p ++ following := by
  rw [List.dropWhile_append, if_neg]
  rwa [List.isEmpty_iff]

/-- A token that does not reach the end of the text is the same with more text behind it. -/
theorem read_append {c : Char} {rest : List Char} (more : (read c rest).2 ≠ [])
    (following : List Char) :
    read c (rest ++ following) = ((read c rest).1, (read c rest).2 ++ following) := by
  have nonempty : rest ≠ [] := by
    rintro rfl
    exact more (List.length_eq_zero_iff.mp (Nat.le_zero.mp (read_length_le c [])))
  have same : pairKind? c (rest ++ following) = pairKind? c rest := by
    rw [pairKind?, pairKind?, List.head?_append, List.head?_eq_some_head nonempty]
    rfl
  unfold read at more ⊢
  rw [same]
  split
  · rw [List.tail_append_of_ne_nil nonempty]
  · rename_i unpaired
    simp only [unpaired] at more
    split
    · rfl
    · rename_i unlisted
      simp only [unlisted] at more
      split
      · rename_i letter
        rw [if_pos letter] at more
        rw [takeWhile_append_of_more more, dropWhile_append_of_more more]
      · rename_i letter
        rw [if_neg letter] at more
        split
        · rename_i digit
          rw [if_pos digit] at more
          rw [takeWhile_append_of_more more, dropWhile_append_of_more more]
        · rfl

/-- The characters of a token are the ones it was read from. -/
theorem read_literal (c : Char) (rest : List Char) :
    (read c rest).1.literal.toList ++ (read c rest).2 = c :: rest := by
  unfold read
  split
  · rename_i found
    rw [String.toList_ofList, (pairKind?_eq_of_some found).1]
    rfl
  · split
    · rw [String.toList_ofList]
      rfl
    · split
      · rw [String.toList_ofList, List.cons_append, List.takeWhile_append_dropWhile]
      · split
        · rw [String.toList_ofList, List.cons_append, List.takeWhile_append_dropWhile]
        · rw [String.toList_ofList]
          rfl

theorem read_semicolon {c : Char} {rest : List Char} (shown : ¬isLayout c)
    (kind : (read c rest).1.kind = .semicolon) : c = ';' ∧ (read c rest).2 = rest := by
  have alone : (read c rest).1 = fixed .semicolon :=
    (lexical_read shown).eq_fixed kind (by decide)
  have parts := read_literal c rest
  rw [alone] at parts
  obtain ⟨first, others⟩ := List.cons.inj parts
  exact ⟨first.symm, others⟩

theorem scan_semicolon (rest : List Char) : scan (';' :: rest) = fixed .semicolon :: scan rest :=
  scan_fixed rfl (by decide) (by decide) rest

/-- The tokens of a text that ends behind a semicolon do not depend on what is written behind it. -/
theorem scan_append {text : List Char}
    (ends : ∀ token ∈ (scan text).getLast?, token.kind = .semicolon) (following : List Char) :
    scan (text ++ following) = scan text ++ scan following := by
  induction text using scan_induction with
  | nil => rw [scan_nil, List.nil_append, List.nil_append]
  | layout c rest layout ih =>
      rw [scan_layout layout] at ends ⊢
      rw [List.cons_append, scan_layout layout, ih ends]
  | read c rest shown ih =>
      rw [scan_read shown] at ends
      have ends_later : ∀ token ∈ (scan (read c rest).2).getLast?, token.kind = .semicolon := by
        intro token member
        apply ends
        rw [List.getLast?_cons, Option.mem_def.mp member]
        rfl
      by_cases last : (read c rest).2 = []
      · have kind : (read c rest).1.kind = .semicolon := by
          apply ends
          rw [last, scan_nil]
          rfl
        obtain ⟨rfl, same⟩ := read_semicolon shown kind
        obtain rfl : rest = [] := same.symm.trans last
        rw [List.cons_append, List.nil_append, scan_semicolon, scan_semicolon, scan_nil]
        rfl
      · rw [List.cons_append, scan_read shown, read_append last, ih ends_later, scan_read shown]
        rfl

/-- Text behind an edge is read on its own. -/
theorem scan_edge {following : List Char} (edge : Edge following) (text : List Char) :
    scan (text ++ following) = scan text ++ scan following := by
  induction text using scan_induction with
  | nil => rw [scan_nil, List.nil_append, List.nil_append]
  | layout c rest layout ih => rw [List.cons_append, scan_layout layout, scan_layout layout, ih]
  | read c rest shown ih =>
      rw [scan_read shown]
      by_cases last : (read c rest).2 = []
      · have literal := read_literal c rest
        rw [last, List.append_nil] at literal
        rw [← literal, scan_literal (lexical_read shown) edge, last, scan_nil]
        rfl
      · rw [List.cons_append, scan_read shown, read_append last, ih]
        rfl

end MonkeyLang.Token
