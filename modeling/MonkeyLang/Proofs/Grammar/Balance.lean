import Mathlib.Data.List.Infix
import MonkeyLang.Proofs.Grammar.Settled
import MonkeyLang.Proofs.Token.Joined

/-!
Braces in a text. Each of them is a token of its own, so that the tokens of a text close the braces
they open where the text does.
-/

namespace MonkeyLang

namespace Token

theorem count_of_run {p : Char → Bool} {run : List Char} (inside : ∀ c ∈ run, p c) {brace : Char}
    (outside : ¬p brace) : run.count brace = 0 :=
  List.count_eq_zero.mpr fun member => outside (inside brace member)

theorem Lexical.count_braces {token : Token} (lexical : token.Lexical) :
    token.literal.toList.count '{' = (if token.kind = .openBrace then 1 else 0) ∧
      token.literal.toList.count '}' = (if token.kind = .closeBrace then 1 else 0) := by
  cases lexical with
  | symbol found =>
      unfold symbolKind? at found
      split at found <;> cases found <;> decide
  | pair found => rcases pairKind?_cases found with ⟨rfl, rfl⟩ | ⟨rfl, rfl⟩ <;> decide
  | @word c letters initial others =>
      have inside : ∀ d ∈ c :: letters, isLetter d := List.forall_mem_cons.mpr ⟨initial, others⟩
      have plain (word : String) : Kind.ofWord word ≠ .openBrace ∧ Kind.ofWord word ≠ .closeBrace := by
        unfold Kind.ofWord
        split <;> decide
      rw [String.toList_ofList, count_of_run inside (by decide), count_of_run inside (by decide),
        if_neg (plain _).1, if_neg (plain _).2]
      exact ⟨rfl, rfl⟩
  | @number c digits initial others =>
      have inside : ∀ d ∈ c :: digits, isDigit d := List.forall_mem_cons.mpr ⟨initial, others⟩
      rw [String.toList_ofList, count_of_run inside (by decide), count_of_run inside (by decide)]
      exact ⟨rfl, rfl⟩
  | @illegal c shown symbol letter digit =>
      have inside : ∀ d ∈ [c], (symbolKind? d).isNone := by simp [symbol]
      rw [String.toList_ofList, count_of_run inside (by decide), count_of_run inside (by decide)]
      exact ⟨rfl, rfl⟩

theorem present_scan (text : List Char) : ∀ token ∈ scan text, token.kind ≠ .endOfInput :=
  fun _ member => (lexical_of_mem_scan member).kind_ne_endOfInput

end Token

namespace Grammar

open Token (Kind)

/-- Text that closes no brace before it is opened, and in the end all of them, where some braces are
open before it. -/
structure Balanced (braces : Nat) (text : List Char) : Prop where
  opened : ∀ front, front <+: text → front.count '}' ≤ braces + front.count '{'
  closed : text.count '}' = braces + text.count '{'

instance (braces : Nat) (text : List Char) : Decidable (Balanced braces text) :=
  decidable_of_iff
    ((∀ front ∈ text.inits, front.count '}' ≤ braces + front.count '{') ∧
      text.count '}' = braces + text.count '{')
    ⟨fun ⟨opened, closed⟩ => ⟨fun front part => opened front ((List.mem_inits _ _).mpr part), closed⟩,
      fun balanced => ⟨fun front member => balanced.opened front ((List.mem_inits _ _).mp member),
        balanced.closed⟩⟩

theorem Balanced.append {braces : Nat} {front rest : List Char}
    (balanced : Balanced braces (front ++ rest)) :
    front.count '}' ≤ braces + front.count '{' ∧
      Balanced (braces + front.count '{' - front.count '}') rest := by
  have bound : front.count '}' ≤ braces + front.count '{' :=
    balanced.opened front (List.prefix_append _ _)
  refine ⟨bound, ?_, ?_⟩
  · intro later part
    have counted := balanced.opened _ ((List.prefix_append_right_inj front).mpr part)
    rw [List.count_append, List.count_append] at counted
    omega
  · have counted := balanced.closed
    rw [List.count_append, List.count_append] at counted
    omega

theorem closes_scan {braces : Nat} {text : List Char} (balanced : Balanced braces text) :
    Closes braces (Token.scan text) := by
  induction text using Token.scan_induction generalizing braces with
  | nil =>
      rw [Token.scan_nil]
      exact balanced.closed.symm
  | layout c rest layout ih =>
      rw [Token.scan_layout layout]
      have inside : ∀ d ∈ [c], Token.isLayout d := by simpa using layout
      have whole : Balanced braces ([c] ++ rest) := balanced
      have left := whole.append.2
      rw [Token.count_of_run inside (by decide), Token.count_of_run inside (by decide)] at left
      exact ih left
  | read c rest shown ih =>
      have lexical : (Token.read c rest).1.Lexical := Token.lexical_read shown
      obtain ⟨opens, closes⟩ := lexical.count_braces
      rw [← Token.read_literal c rest] at balanced
      obtain ⟨bound, left⟩ := balanced.append
      rw [opens, closes] at bound left
      have later := ih left
      rw [Token.scan_read shown]
      unfold Closes
      split
      · rename_i kind
        rw [kind] at later
        exact later
      · rename_i kind
        rw [kind] at bound later
        exact ⟨bound, later⟩
      · rename_i others others'
        rwa [if_neg others, if_neg others'] at later

/-- A balanced text that ends behind a semicolon leaves nothing open. -/
theorem settled_scan {text : List Char} (balanced : Balanced 0 text)
    (ends : ∀ token ∈ (Token.scan text).getLast?, token.kind = .semicolon) :
    Settled 0 (Token.scan text) where
  present := Token.present_scan text
  ends := ends
  closes := ⟨0, Nat.le_refl 0, closes_scan balanced⟩

end Grammar

end MonkeyLang
