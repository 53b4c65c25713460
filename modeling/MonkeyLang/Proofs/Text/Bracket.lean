import Mathlib.Data.List.TakeWhile
import MonkeyLang.Session

/-!
Brackets in a text. A text is bracketed where every bracket that opens is closed by its own kind, the
last one open first; the numbers of brackets that a session goes by are then those of such a text
(`Bracketed.nested`).
-/

namespace MonkeyLang.Text

open Session (opens closes)

/-- The bracket that closes an opening one. -/
def closer? : Char → Option Char
  | '(' => some ')'
  | '{' => some '}'
  | _ => none

/-- The brackets still to be closed behind a character, the last one opened first. There are none
where the character closes another bracket than that one. -/
def meet (awaited : List Char) (c : Char) : Option (List Char) :=
  match closer? c with
  | some closing => some (closing :: awaited)
  | none =>
    if closes c then if awaited.head? = some c then some awaited.tail else none
    else some awaited

def unclosed (awaited text : List Char) : Option (List Char) := text.foldlM meet awaited

def Bracketed (text : List Char) : Prop := unclosed [] text = some []

instance (text : List Char) : Decidable (Bracketed text) :=
  inferInstanceAs (Decidable (unclosed [] text = some []))

/-- A character that is no bracket. -/
def Plain (c : Char) : Prop := ¬opens c ∧ ¬closes c

instance (c : Char) : Decidable (Plain c) := inferInstanceAs (Decidable (¬opens c ∧ ¬closes c))

/-- A text whose brackets are in order, as their numbers show it. -/
structure Nested (text : List Char) : Prop where
  counted : text.countP opens = text.countP closes
  opened : ∀ front, front <+: text → front.countP closes ≤ front.countP opens
  matched : ∀ front opening rest, text = front ++ opening :: rest → opens opening →
    ∃ closing inside after, rest = inside ++ closing :: after ∧ closer? opening = some closing ∧
      Bracketed inside
  inner : ∀ front opening inside closing after,
    text = front ++ opening :: inside ++ closing :: after → closer? opening = some closing →
      Bracketed inside → ∀ part, part <+: inside →
        (front ++ opening :: part).countP closes < (front ++ opening :: part).countP opens

section Character

variable {awaited next : List Char} {c closing : Char}

theorem opens_of_closer? (found : closer? c = some closing) : opens c ∧ ¬closes c := by
  unfold closer? at found
  split at found <;> first | decide | cases found

theorem closes_of_closer? (found : closer? c = some closing) : closes closing := by
  unfold closer? at found
  split at found <;> cases found <;> rfl

theorem closer?_of_opens (opening : opens c) : ∃ closing, closer? c = some closing := by
  simp only [opens, Bool.or_eq_true, decide_eq_true_eq] at opening
  rcases opening with rfl | rfl
  · exact ⟨')', rfl⟩
  · exact ⟨'}', rfl⟩

theorem closer?_eq_none (spared : ¬opens c) : closer? c = none := by
  cases found : closer? c with
  | none => rfl
  | some closing => exact absurd (opens_of_closer? found).1 spared

theorem not_opens_of_closes (shuts : closes c) : ¬opens c := by
  intro opening
  obtain ⟨closing, found⟩ := closer?_of_opens opening
  exact (opens_of_closer? found).2 shuts

/-- Characters of a kind that spares the brackets are plain. -/
theorem plain_of_apart {p : Char → Bool} (apart : ['(', ')', '{', '}'].all fun d => !p d)
    (holds : p c) : Plain c := by
  have spared {d : Char} (listed : d ∈ ['(', ')', '{', '}']) : ¬p d := by
    simpa using List.all_eq_true.mp apart d listed
  simp only [Plain, opens, closes, Bool.or_eq_true, decide_eq_true_eq]
  constructor <;> rintro (rfl | rfl) <;> exact spared (by decide) holds

theorem meet_opening (found : closer? c = some closing) :
    meet awaited c = some (closing :: awaited) := by
  rw [meet, found]

theorem meet_closing (shuts : closes c) : meet (c :: awaited) c = some awaited := by
  rw [meet, closer?_eq_none (not_opens_of_closes shuts)]
  simp only [shuts, List.head?_cons, List.tail_cons, if_true]

theorem meet_plain (plain : Plain c) : meet awaited c = some awaited := by
  rw [meet, closer?_eq_none plain.1]
  exact if_neg plain.2

/-- All that a character can do to the brackets still to be closed. -/
inductive Met (awaited : List Char) (c : Char) : List Char → Prop
  | opening {closing : Char} (found : closer? c = some closing) : Met awaited c (closing :: awaited)
  | closing {left : List Char} (shuts : closes c) (awaits : awaited = c :: left) :
      Met awaited c left
  | plain (plain : Plain c) : Met awaited c awaited

theorem met_of_meet (result : meet awaited c = some next) : Met awaited c next := by
  unfold meet at result
  split at result
  · rename_i closing found
    cases result
    exact .opening found
  · rename_i last
    have spared : ¬opens c := by
      intro opening
      obtain ⟨closing, found⟩ := closer?_of_opens opening
      rw [found] at last
      cases last
    by_cases shuts : closes c
    · rw [if_pos shuts] at result
      split at result
      · rename_i first
        cases result
        cases awaited with
        | nil => cases first
        | cons head left =>
            cases first
            exact .closing shuts rfl
      · cases result
    · rw [if_neg shuts] at result
      cases result
      exact .plain ⟨spared, shuts⟩

end Character

theorem unclosed_cons (awaited : List Char) (c : Char) (rest : List Char) :
    unclosed awaited (c :: rest) = (meet awaited c).bind (unclosed · rest) := rfl

theorem unclosed_append (awaited front rest : List Char) :
    unclosed awaited (front ++ rest) = (unclosed awaited front).bind (unclosed · rest) :=
  List.foldlM_append

theorem unclosed_plain {text : List Char} (plain : ∀ c ∈ text, Plain c) (awaited : List Char) :
    unclosed awaited text = some awaited := by
  induction text with
  | nil => rfl
  | cons c rest ih =>
      obtain ⟨first, others⟩ := List.forall_mem_cons.mp plain
      rw [unclosed_cons, meet_plain first]
      exact ih others

/-- A text that goes on as far as its end has gone on as far as each of its prefixes. -/
theorem unclosed_front {awaited front rest left : List Char}
    (whole : unclosed awaited (front ++ rest) = some left) :
    ∃ between, unclosed awaited front = some between ∧ unclosed between rest = some left := by
  rw [unclosed_append] at whole
  exact Option.bind_eq_some_iff.mp whole

/-- Brackets that were open before a text stay open below those that it opens. -/
theorem unclosed_below {awaited text left : List Char} (met : unclosed awaited text = some left)
    (below : List Char) : unclosed (awaited ++ below) text = some (left ++ below) := by
  induction text generalizing awaited with
  | nil =>
      cases met
      rfl
  | cons c rest ih =>
      rw [unclosed_cons] at met ⊢
      obtain ⟨next, first, later⟩ := Option.bind_eq_some_iff.mp met
      have same : meet (awaited ++ below) c = some (next ++ below) := by
        cases met_of_meet first with
        | opening found => exact meet_opening found
        | closing shuts awaits =>
            rw [awaits]
            exact meet_closing shuts
        | plain plain => exact meet_plain plain
      rw [same]
      exact ih later

theorem unclosed_counts {awaited text left : List Char}
    (met : unclosed awaited text = some left) :
    text.countP opens + awaited.length = text.countP closes + left.length := by
  induction text generalizing awaited with
  | nil =>
      cases met
      rfl
  | cons c rest ih =>
      obtain ⟨next, first, later⟩ := Option.bind_eq_some_iff.mp met
      have counted := ih later
      cases met_of_meet first with
      | opening found =>
          obtain ⟨opening, spared⟩ := opens_of_closer? found
          rw [List.countP_cons_of_pos opening, List.countP_cons_of_neg spared]
          rw [List.length_cons] at counted
          omega
      | closing shuts awaits =>
          rw [List.countP_cons_of_neg (not_opens_of_closes shuts), List.countP_cons_of_pos shuts, awaits,
            List.length_cons]
          omega
      | plain plain =>
          rw [List.countP_cons_of_neg plain.1, List.countP_cons_of_neg plain.2]
          exact counted

/-- A bracket that is open before a text and not behind it is closed in between, and up to there the
text closes just what it opens itself and what was opened later. -/
theorem unclosed_until {above below text left : List Char} {closing : Char}
    (met : unclosed (above ++ closing :: below) text = some left)
    (closed : left.length ≤ below.length) :
    ∃ inside after, text = inside ++ closing :: after ∧ unclosed above inside = some [] := by
  induction text generalizing above with
  | nil =>
      cases met
      rw [List.length_append, List.length_cons] at closed
      omega
  | cons c rest ih =>
      obtain ⟨next, first, later⟩ := Option.bind_eq_some_iff.mp met
      cases met_of_meet first with
      | @opening shut found =>
          rw [← List.cons_append] at later
          obtain ⟨inside, after, rfl, open'⟩ := ih later
          refine ⟨c :: inside, after, rfl, ?_⟩
          rw [unclosed_cons, meet_opening found]
          exact open'
      | closing shuts awaits =>
          cases above with
          | nil =>
              cases awaits
              exact ⟨[], rest, rfl, rfl⟩
          | cons head above =>
              cases awaits
              obtain ⟨inside, after, rfl, open'⟩ := ih later
              refine ⟨c :: inside, after, rfl, ?_⟩
              rw [unclosed_cons, meet_closing shuts]
              exact open'
      | plain plain =>
          obtain ⟨inside, after, rfl, open'⟩ := ih later
          refine ⟨c :: inside, after, rfl, ?_⟩
          rw [unclosed_cons, meet_plain plain]
          exact open'

theorem bracketed_plain {text : List Char} (plain : ∀ c ∈ text, Plain c) : Bracketed text :=
  unclosed_plain plain []

theorem Bracketed.unclosed {text : List Char} (bracketed : Bracketed text) (awaited : List Char) :
    Text.unclosed awaited text = some awaited :=
  unclosed_below bracketed awaited

theorem Bracketed.append {first second : List Char} (bracketed : Bracketed first)
    (bracketed' : Bracketed second) : Bracketed (first ++ second) := by
  rw [Bracketed, unclosed_append, bracketed]
  exact bracketed'

theorem Bracketed.enclosed {inside : List Char} (bracketed : Bracketed inside)
    {opening closing : Char} (found : closer? opening = some closing) :
    Bracketed (opening :: inside ++ [closing]) := by
  have inner : Text.unclosed [] (opening :: inside) = some [closing] := by
    rw [unclosed_cons, meet_opening found]
    exact bracketed.unclosed [closing]
  rw [Bracketed, unclosed_append, inner, Option.bind_some, unclosed_cons,
    meet_closing (closes_of_closer? found)]
  rfl

theorem Bracketed.nested {text : List Char} (bracketed : Bracketed text) : Nested text where
  counted := unclosed_counts bracketed
  opened := by
    rintro front ⟨rest, rfl⟩
    obtain ⟨between, met, _⟩ := unclosed_front bracketed
    have counted := unclosed_counts met
    rw [List.length_nil] at counted
    omega
  matched := by
    rintro front opening rest rfl opens
    obtain ⟨closing, found⟩ := closer?_of_opens opens
    obtain ⟨between, _, met⟩ := unclosed_front bracketed
    rw [unclosed_cons, meet_opening found] at met
    rw [← List.nil_append (closing :: between)] at met
    obtain ⟨inside, after, shape, inner⟩ := unclosed_until met (Nat.zero_le between.length)
    exact ⟨closing, inside, after, shape, found, inner⟩
  inner := by
    rintro front opening inside closing after rfl found inner part ⟨others, rfl⟩
    have shape : front ++ opening :: (part ++ others) ++ closing :: after =
        (front ++ opening :: part) ++ (others ++ closing :: after) := by simp
    rw [shape] at bracketed
    obtain ⟨awaited, met, _⟩ := unclosed_front bracketed
    obtain ⟨between, before, met'⟩ := unclosed_front met
    obtain ⟨own, inside, _⟩ := unclosed_front inner
    rw [unclosed_cons, meet_opening found] at met'
    have within : Text.unclosed (closing :: between) part = some (own ++ closing :: between) :=
      unclosed_below inside (closing :: between)
    cases within.symm.trans met'
    have counted := unclosed_counts met
    rw [List.length_append, List.length_cons, List.length_nil] at counted
    omega

/-- Numbers alone do not tell: here they agree in every prefix. -/
example : ¬Bracketed ['(', '{', ')', '}'] ∧ Bracketed ['(', '{', '}', ')', '{', '}'] := by decide

theorem trimRight_append (text : List Char) :
    trimRight text ++ (text.reverse.takeWhile isBlank).reverse = text := by
  rw [trimRight, ← List.reverse_append, List.takeWhile_append_dropWhile, List.reverse_reverse]

theorem trimRight_append_blanks (text : List Char) :
    ∃ blanks, text = trimRight text ++ blanks ∧ ∀ c ∈ blanks, isBlank c := by
  refine ⟨_, (trimRight_append text).symm, ?_⟩
  intro c member
  exact List.mem_takeWhile_imp (List.mem_reverse.mp member)

theorem last_trimRight (text : List Char) : ∀ c ∈ (trimRight text).getLast?, ¬isBlank c := by
  intro c last
  rw [trimRight, List.getLast?_reverse] at last
  have first := List.head?_dropWhile_not isBlank text.reverse
  rw [Option.mem_def.mp last] at first
  exact Bool.eq_false_iff.mp first

theorem unclosed_trimRight (awaited text : List Char) :
    unclosed awaited (trimRight text) = unclosed awaited text := by
  obtain ⟨blanks, shape, blank⟩ := trimRight_append_blanks text
  have plain : ∀ c ∈ blanks, Plain c := fun c member => plain_of_apart (by decide) (blank c member)
  conv => rhs; rw [shape, unclosed_append]
  cases unclosed awaited (trimRight text) with
  | none => rfl
  | some left => exact (unclosed_plain plain left).symm

/-- Whether brackets are left open can be told by counting where none closes that is not open. -/
theorem isOpen_of_unclosed {text left : List Char} (met : unclosed [] text = some left) :
    Session.isOpen text = !left.isEmpty := by
  have counted := unclosed_counts met
  rw [List.length_nil] at counted
  cases left with
  | nil =>
      rw [List.length_nil] at counted
      exact decide_eq_false (by omega)
  | cons first others =>
      rw [List.length_cons] at counted
      exact decide_eq_true (by omega)

end MonkeyLang.Text
