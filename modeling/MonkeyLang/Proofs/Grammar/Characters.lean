import MonkeyLang.Proofs.Grammar.Bracketing

/-!
The characters of programs. The grammar has no place for an illegal token, so a source that is read
without a mistake is in ASCII, and it has no blanks but layout (`ordinary_of_accepted`).
-/

namespace MonkeyLang

namespace Token

open Text (isBlank)

/-- A character that programs are written with. -/
structure Ordinary (c : Char) : Prop where
  ascii : c.toNat < 0x80
  blank : isBlank c → isLayout c

variable {c : Char}

theorem ordinary_of_layout (layout : isLayout c) : Ordinary c := by
  refine ⟨?_, fun _ => layout⟩
  simp only [isLayout, Bool.or_eq_true, decide_eq_true_eq] at layout
  rcases layout with ((rfl | rfl) | rfl) | rfl <;> decide

theorem ordinary_of_bounds (low : 0x21 ≤ c.toNat) (high : c.toNat ≤ 0x7e) : Ordinary c where
  ascii := by omega
  blank blank := by
    simp [isBlank, Text.blankRanges] at blank
    omega

theorem ordinary_of_digit (digit : isDigit c) : Ordinary c := by
  have bounds := Numeral.digit_bounds digit
  exact ordinary_of_bounds (by omega) (by omega)

theorem ordinary_of_letter (letter : isLetter c) : Ordinary c := by
  simp only [isLetter, Bool.or_eq_true, Bool.and_eq_true, decide_eq_true_eq, Char.le_def,
    UInt32.le_iff_toNat_le] at letter
  rcases letter with (⟨low, high⟩ | ⟨low, high⟩) | rfl
  · change 0x61 ≤ c.toNat at low
    change c.toNat ≤ 0x7a at high
    exact ordinary_of_bounds (by omega) (by omega)
  · change 0x41 ≤ c.toNat at low
    change c.toNat ≤ 0x5a at high
    exact ordinary_of_bounds (by omega) (by omega)
  · exact ordinary_of_bounds (by decide) (by decide)

theorem ordinary_of_symbol {kind : Kind} (found : symbolKind? c = some kind) : Ordinary c := by
  unfold symbolKind? at found
  split at found <;> cases found <;> exact ordinary_of_bounds (by decide) (by decide)

theorem Lexical.ordinary {token : Token} (lexical : token.Lexical) (legal : token.kind ≠ .illegal) :
    ∀ c ∈ token.literal.toList, Ordinary c := by
  cases lexical with
  | symbol found =>
      rw [String.toList_ofList, List.forall_mem_singleton]
      exact ordinary_of_symbol found
  | pair found =>
      rw [String.toList_ofList, List.forall_mem_cons, List.forall_mem_singleton]
      rcases pairKind?_cases found with ⟨rfl, rfl⟩ | ⟨rfl, rfl⟩ <;>
        exact ⟨ordinary_of_symbol rfl, ordinary_of_symbol rfl⟩
  | word initial others =>
      rw [String.toList_ofList, List.forall_mem_cons]
      exact ⟨ordinary_of_letter initial, fun d member => ordinary_of_letter (others d member)⟩
  | number initial others =>
      rw [String.toList_ofList, List.forall_mem_cons]
      exact ⟨ordinary_of_digit initial, fun d member => ordinary_of_digit (others d member)⟩
  | illegal => exact absurd rfl legal

/-- No token is illegal. -/
def Legal (tokens : List Token) : Prop := ∀ token ∈ tokens, token.kind ≠ .illegal

theorem legal_nil : Legal [] := nofun

theorem Legal.cons {token : Token} {tokens : List Token} {kind : Kind} (legal : Legal tokens)
    (same : token.kind = kind) (fine : kind ≠ .illegal) : Legal (token :: tokens) :=
  List.forall_mem_cons.mpr ⟨same ▸ fine, legal⟩

theorem Legal.append {first second : List Token} (legal : Legal first) (legal' : Legal second) :
    Legal (first ++ second) :=
  List.forall_mem_append.mpr ⟨legal, legal'⟩

theorem Legal.ordinary {text : List Char} (legal : Legal (scan text)) : ∀ c ∈ text, Ordinary c := by
  induction text using scan_induction with
  | nil => exact List.forall_mem_nil _
  | layout c rest layout ih =>
      rw [scan_layout layout] at legal
      exact List.forall_mem_cons.mpr ⟨ordinary_of_layout layout, ih legal⟩
  | read c rest shown ih =>
      rw [scan_read shown] at legal
      obtain ⟨first, others⟩ := List.forall_mem_cons.mp legal
      rw [← read_literal c rest]
      exact List.forall_mem_append.mpr ⟨(lexical_read shown).ordinary first, ih others⟩

end Token

namespace Grammar

open Token (Legal legal_nil)

theorem Level.illegal_not_mem (level : Level) : .illegal ∉ level.operators := by
  cases level <;> decide

theorem Derives.legal {tokens : List Token} {phrase : Phrase} (derives : Derives tokens phrase) :
    Legal tokens := by
  induction derives with
  | tighter inner ih => exact ih
  | binary operates first second ih ih' =>
      refine ih.append (ih'.cons rfl ?_)
      intro illegal
      exact Level.illegal_not_mem _ (illegal ▸ operates)
  | unary operates operand ih => rcases operates with kind | kind <;> exact ih.cons kind (by decide)
  | call opens closes first second ih ih' => 
      exact (ih.append (ih'.cons opens (by decide))).append (legal_nil.cons closes (by decide))
  | name kind => exact legal_nil.cons kind (by decide)
  | number kind => exact legal_nil.cons kind (by decide)
  | affirmation kind => exact legal_nil.cons kind (by decide)
  | negation kind => exact legal_nil.cons kind (by decide)
  | group opens closes inner ih =>
      exact (ih.cons opens (by decide)).append (legal_nil.cons closes (by decide))
  | conditional starts opens closes tested chosen ih ih' =>
      exact ((ih.cons opens (by decide)).cons starts (by decide)).append
        (ih'.cons closes (by decide))
  | alternative starts opens closes divides tested chosen otherwise ih ih' ih'' =>
      exact (((ih.cons opens (by decide)).cons starts (by decide)).append
        (ih'.cons closes (by decide))).append (ih''.cons divides (by decide))
  | function starts opens closes parameters inner ih ih' =>
      exact ((ih.cons opens (by decide)).cons starts (by decide)).append
        (ih'.cons closes (by decide))
  | noArguments => exact legal_nil
  | arguments initial further ih ih' => exact ih.append ih'
  | lastArgument => exact legal_nil
  | furtherArguments divides following further ih ih' =>
      exact (ih.cons divides (by decide)).append ih'
  | noParameters => exact legal_nil
  | parameters kind further ih => exact ih.cons kind (by decide)
  | lastParameter => exact legal_nil
  | furtherParameters divides kind further ih =>
      exact (ih.cons kind (by decide)).cons divides (by decide)
  | block opens closes inner ih =>
      exact (ih.cons opens (by decide)).append (legal_nil.cons closes (by decide))
  | binding starts kind assigns value ih =>
      exact ((ih.cons assigns (by decide)).cons kind (by decide)).cons starts (by decide)
  | returning starts value ih => exact ih.cons starts (by decide)
  | evaluation value ih => exact ih
  | noStatements => exact legal_nil
  | ended ends initial further ih ih' => exact ih.append (ih'.cons ends (by decide))
  | unended separate initial further ih ih' => exact ih.append ih'

theorem legal_of_accepted {depth : Nat} {source : String}
    (accepted : (readText depth source).mistakes = []) : Legal (Token.scan source.toList) := by
  obtain ⟨nodes, _, derives⟩ := derives_of_clean accepted
  exact derives.legal

/-- A source that is read without a mistake is in ASCII, and has no blanks but layout. -/
theorem ordinary_of_accepted {depth : Nat} {source : String}
    (accepted : (readText depth source).mistakes = []) : ∀ c ∈ source.toList, Token.Ordinary c :=
  (legal_of_accepted accepted).ordinary

end Grammar

end MonkeyLang
