import MonkeyLang.CommandLine
import MonkeyLang.Proofs.Grammar.Characters

/-!
A program in a file. The bytes of a source without mistakes are read as the source, and that line ends
are made the same in it changes no token (`readProgram_file`).
-/

namespace MonkeyLang

namespace Text

theorem encodeChar_ascii {c : Char} (ascii : c.toNat < 0x80) :
    String.utf8EncodeChar c = [c.val.toUInt8] := by
  apply String.utf8EncodeChar_eq_singleton
  rw [Char.utf8Size_eq_one_iff, UInt32.le_iff_toNat_le]
  exact Nat.le_of_lt_succ ascii

theorem toNat_byte {c : Char} (ascii : c.toNat < 0x80) : c.val.toUInt8.toNat = c.toNat := by
  rw [UInt32.toNat_toUInt8]
  exact Nat.mod_eq_of_lt (Nat.lt_trans ascii (by decide))

/-- The bytes of a text in a file. -/
def encode (text : String) : List UInt8 := text.toUTF8.data.toList

theorem encode_eq (text : String) : encode text = text.toList.flatMap String.utf8EncodeChar :=
  calc
    encode text = text.toList.utf8Encode.data.toList :=
      congrArg (·.data.toList) String.utf8Encode_toList.symm
    _ = text.toList.flatMap String.utf8EncodeChar := List.toList_data_toByteArray

/-- Each byte of a text in ASCII is a character of its own. -/
theorem decodeFrom_ascii {text : List Char} (ascii : ∀ c ∈ text, c.toNat < 0x80) (position : Nat)
    (before : List Char) :
    decodeFrom position none before (text.flatMap String.utf8EncodeChar) =
      .ok (before.reverse ++ text) := by
  induction text generalizing position before with
  | nil => rw [List.flatMap_nil, decodeFrom, List.append_nil]
  | cons c rest ih =>
      obtain ⟨first, others⟩ := List.forall_mem_cons.mp ascii
      rw [List.flatMap_cons, encodeChar_ascii first, List.singleton_append, decodeFrom]
      simp only [toNat_byte first, if_pos first, Char.ofNat_toNat]
      rw [ih others, List.reverse_cons, List.append_assoc]
      rfl

theorem decode_encode {text : String} (ascii : ∀ c ∈ text.toList, c.toNat < 0x80) :
    decode (encode text) = .ok text.toList := by
  rw [encode_eq]
  exact decodeFrom_ascii ascii 0 []

/-- A line end is layout, so what is before it is read on its own. -/
theorem scan_lineEnd {c : Char} (lineEnd : c = '\n' ∨ c = '\r') (front rest : List Char) :
    Token.scan (front ++ c :: rest) = Token.scan front ++ Token.scan rest := by
  have layout : Token.isLayout c := by rcases lineEnd with rfl | rfl <;> decide
  have edge : Token.Edge (c :: rest) := by
    rcases lineEnd with rfl | rfl <;> exact Token.edge_cons (by decide) rest
  rw [Token.scan_edge edge, Token.scan_layout layout]

theorem scan_behind_unifyNewlines (front text : List Char) :
    Token.scan (front ++ unifyNewlines text) = Token.scan (front ++ text) := by
  -- What is behind a line end is read on its own, so `front` starts anew there.
  induction text using unifyNewlines.induct generalizing front with
  | case1 => rfl
  | case2 rest ih =>
      have rest_same := ih []
      rw [List.nil_append, List.nil_append] at rest_same
      rw [unifyNewlines, scan_lineEnd (.inl rfl), scan_lineEnd (.inr rfl),
        Token.scan_layout (by decide), rest_same]
  | case3 c rest single ih =>
      rw [unifyNewlines.eq_3 c rest single]
      split
      · rename_i carriage
        have rest_same := ih []
        rw [List.nil_append, List.nil_append] at rest_same
        rw [scan_lineEnd (.inl rfl), scan_lineEnd (.inr carriage), rest_same]
      · have longer := ih (front ++ [c])
        rw [List.append_assoc, List.append_assoc] at longer
        exact longer

theorem scan_unifyNewlines (text : List Char) :
    Token.scan (unifyNewlines text) = Token.scan text :=
  scan_behind_unifyNewlines [] text

end Text

theorem ordinary_of_readProgram {source : String} {program : Node}
    (accepted : readProgram source = .ok program) : ∀ c ∈ source.toList, Token.Ordinary c :=
  Grammar.ordinary_of_accepted (readProgram_eq_ok.mp accepted).1

namespace CommandLine

/-- A file that can be opened under a path and holds a text. -/
structure Holds (files : Files) (path source : String) : Prop where
  openable : '\x00' ∉ path.toList
  bytes : files path = some (Text.encode source)

theorem readSource_holds {files : Files} {path source : String} (holds : Holds files path source)
    (ascii : ∀ c ∈ source.toList, c.toNat < 0x80) :
    readSource files path = .ok (.ofList (Text.unifyNewlines source.toList)) := by
  have openable : ¬path.contains '\x00' := by
    rw [String.contains_char_eq, decide_eq_true_eq]
    exact holds.openable
  rw [readSource, if_neg openable, holds.bytes]
  simp only [Text.decode_encode ascii]

/-- A file with the text of a program is read as the program. -/
theorem readProgram_file {files : Files} {path source : String} {program : Node}
    (holds : Holds files path source) (accepted : readProgram source = .ok program) :
    ∃ unified, readSource files path = .ok unified ∧ readProgram unified = .ok program := by
  have ordinary := ordinary_of_readProgram accepted
  refine ⟨_, readSource_holds holds fun c member => (ordinary c member).ascii, ?_⟩
  apply readProgram_of_scan accepted
  rw [String.toList_ofList, Text.scan_unifyNewlines]

end CommandLine

end MonkeyLang
