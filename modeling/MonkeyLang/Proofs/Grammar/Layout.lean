import MonkeyLang.Grammar
import MonkeyLang.Proofs.Token.LongestMatch

/-!
The tokens of a source written anew, with any layout before and behind them and any but none between
them. They are read as the same tokens, and so as the same program with the same mistakes
(`layout_immaterial`).
-/

namespace MonkeyLang

namespace Token

/-- Pieces with nothing but layout around their tokens, and some of it between any two of them. -/
structure Apart (pieces : List Piece) (last : List Char) : Prop where
  blank : ∀ piece ∈ pieces, ∀ c ∈ piece.layout, isLayout c
  between : ∀ piece ∈ pieces.tail, piece.layout ≠ []
  blankEnd : ∀ c ∈ last, isLayout c

theorem edge_of_blank {layout : List Char} (blank : ∀ c ∈ layout, isLayout c)
    (nonempty : layout ≠ []) (rest : List Char) : Edge (layout ++ rest) := by
  obtain ⟨c, others, rfl⟩ := List.exists_cons_of_ne_nil nonempty
  exact edge_cons (plain_of_layout (blank c List.mem_cons_self)) _

namespace Apart

variable {piece : Piece} {pieces : List Piece} {last : List Char}

theorem further (apart : Apart (piece :: pieces) last) : Apart pieces last where
  blank := (List.forall_mem_cons.mp apart.blank).2
  between := fun piece member => apart.between piece (List.mem_of_mem_tail member)
  blankEnd := apart.blankEnd

/-- What stands behind the first piece starts with layout, or is all there is. -/
theorem edge (apart : Apart (piece :: pieces) last) : Edge (spread pieces last) := by
  cases pieces with
  | nil => exact edge_layouts apart.blankEnd
  | cons following pieces =>
      rw [spread_cons]
      exact edge_of_blank (apart.further.blank following List.mem_cons_self)
        (apart.between following List.mem_cons_self) _

theorem divides (apart : Apart pieces last) (lexical : ∀ piece ∈ pieces, piece.token.Lexical) :
    Divides (spread pieces last) pieces last := by
  induction pieces with
  | nil => exact .blank apart.blankEnd
  | cons piece pieces ih =>
      obtain ⟨first, others⟩ := List.forall_mem_cons.mp lexical
      have divides := Divides.piece (apart.blank piece List.mem_cons_self) first
        (apart.edge.not_extends _) (ih apart.further others)
      rwa [divides.text_eq] at divides

end Apart

theorem map_fst_placed (start : Nat) (pieces : List Piece) :
    (placed start pieces).map Prod.fst = pieces.map Piece.token := by
  induction pieces generalizing start with
  | nil => rfl
  | cons piece pieces ih => rw [placed, List.map_cons, List.map_cons, ih]

/-- Any number of reads gives the tokens of the text, and sentinels when there is none left. -/
theorem map_fst_reads (text : List Char) (count : Nat) :
    (reads text.length count text).map Prod.fst =
      (scan text).take count ++ List.replicate (count - (scan text).length) sentinel := by
  obtain ⟨pieces, last, divides⟩ := exists_divides text
  have read := divides.reads_eq 0 count
  rw [Nat.zero_add] at read
  rw [read, divides.scan_eq, List.map_append, List.map_take, map_fst_placed, List.map_replicate,
    List.length_map]

end Token

namespace Grammar

open Token

/-- The tokens of a source with other layout around them, and some between any two, read as they did,
and so does the program, at any depth and with the same mistakes. -/
theorem layout_immaterial {source : String} {pieces : List Piece} {last : List Char}
    (same : pieces.map Piece.token = scan source.toList) (apart : Apart pieces last) :
    let laid := String.ofList (spread pieces last)
    scan laid.toList = pieces.map Piece.token ∧
      (∀ count, (reads laid.toList.length count laid.toList).map Prod.fst =
        (reads source.toList.length count source.toList).map Prod.fst) ∧
      ∀ depth, readText depth laid = readText depth source ∧
        (readText depth laid).messages = (readText depth source).messages := by
  intro laid
  have lexical : ∀ piece ∈ pieces, piece.token.Lexical := by
    intro piece member
    have inside : piece.token ∈ scan source.toList := same ▸ List.mem_map_of_mem member
    exact lexical_of_mem_scan inside
  have divides : Divides laid.toList pieces last := by
    rw [String.toList_ofList]
    exact apart.divides lexical
  have tokens : scan laid.toList = scan source.toList := divides.scan_eq.trans same
  refine ⟨divides.scan_eq, ?_, ?_⟩
  · intro count
    rw [map_fst_reads, map_fst_reads, tokens]
  · intro depth
    have read : readText depth laid = readText depth source := by rw [readText, readText, tokens]
    exact ⟨read, congrArg Parsed.messages read⟩

/-- A mistake between an operator and a word, spread over lines. -/
theorem layout_immaterial_illegal :
    let pieces : List Piece := [⟨[], fixed .letWord⟩, ⟨['\t'], ⟨.name, "x"⟩⟩, ⟨['\n'], fixed .assign⟩,
      ⟨[' '], fixed .equal⟩, ⟨['\r', '\n'], ⟨.illegal, "§"⟩⟩, ⟨[' '], ⟨.number, "12"⟩⟩,
      ⟨['\n'], ⟨.name, "x"⟩⟩]
    pieces.map Piece.token = scan "let x= ==§12x".toList ∧ Apart pieces [' '] ∧
      readText 9 "let\tx\n= ==\r\n§ 12\nx " = readText 9 "let x= ==§12x" := by
  intro pieces
  have same : pieces.map Piece.token = scan "let x= ==§12x".toList := by decide +kernel
  have apart : Apart pieces [' '] :=
    ⟨by simp [pieces, isLayout], by simp [pieces], by simp [isLayout]⟩
  have laid : spread pieces [' '] = "let\tx\n= ==\r\n§ 12\nx ".toList := by decide +kernel
  obtain ⟨-, -, read⟩ := layout_immaterial same apart
  rw [laid, String.ofList_toList] at read
  exact ⟨same, apart, (read 9).1⟩

end Grammar

end MonkeyLang
