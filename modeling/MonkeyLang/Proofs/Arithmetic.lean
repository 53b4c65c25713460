import MonkeyLang.Interpretation
import MonkeyLang.Proofs.Depth
import MonkeyLang.Proofs.Grammar.RoundTrip

/-!
Arithmetic. A term of numerals, negation and the four operators has an exact value, or a first
division by zero: both are given without a way to compute them. Interpreting the text of the term
comes to the same (`interpreted_exactly`).
-/

namespace MonkeyLang.Arithmetic

open Token (Kind isDigit)
open Grammar (Derives Level Mistake Prints)

/-- A run of digits that is not too long to be read. -/
structure Literal where
  digits : List Char
  nonempty : digits ≠ []
  decimal : ∀ c ∈ digits, isDigit c
  bound : digits.length ≤ Numeral.digitLimit

namespace Literal

variable (literal : Literal)

def value : Int := Numeral.decimal literal.digits

def token : Token := ⟨.number, String.ofList literal.digits⟩

theorem token_lexical : literal.token.Lexical :=
  Token.lexical_number literal.nonempty literal.decimal

theorem derives :
    Derives [literal.token] (.expression .primary (.number literal.token literal.value)) := by
  have spelled : literal.token.literal.toList = literal.digits := String.toList_ofList
  have derives := @Derives.number literal.token rfl (spelled ▸ literal.nonempty)
    (spelled ▸ literal.decimal) (spelled ▸ literal.bound)
  rw [spelled] at derives
  exact derives

end Literal

inductive Operator where
  | plus
  | minus
  | asterisk
  | slash
  deriving DecidableEq, Repr

/-- `q` is the quotient of `a` by `b` rounded toward zero. -/
def IsQuotient (a b q : Int) : Prop :=
  ∃ r : Int, q * b + r = a ∧ r.natAbs < b.natAbs ∧ (r = 0 ∨ r.sign = a.sign)

namespace Operator

/-- What an operator makes of two numbers: a number, or the dividend of a division by zero. -/
inductive Gives : Operator → Int → Int → Except Int Int → Prop
  | sum (a b : Int) : Gives .plus a b (.ok (a + b))
  | difference (a b : Int) : Gives .minus a b (.ok (a - b))
  | product (a b : Int) : Gives .asterisk a b (.ok (a * b))
  | quotient {a b q : Int} (exact : IsQuotient a b q) : Gives .slash a b (.ok q)
  | zeroDivision (a : Int) : Gives .slash a 0 (.error a)

def kind : Operator → Kind
  | plus => .plus
  | minus => .minus
  | asterisk => .asterisk
  | slash => .slash

def level : Operator → Level
  | plus | minus => .sum
  | asterisk | slash => .product

def token (operator : Operator) : Token := ⟨operator.kind, operator.kind.symbol⟩

theorem token_lexical (operator : Operator) : operator.token.Lexical := by
  cases operator with
  | plus => exact .symbol (c := '+') rfl
  | minus => exact .symbol (c := '-') rfl
  | asterisk => exact .symbol (c := '*') rfl
  | slash => exact .symbol (c := '/') rfl

theorem operates (operator : Operator) : operator.token.kind ∈ operator.level.operators := by
  cases operator <;> decide

end Operator

/-- Arithmetic expressions. -/
inductive Term where
  | literal (literal : Literal)
  | negative (operand : Term)
  | operation (left : Term) (operator : Operator) (right : Term)

namespace Term

/-- What a term comes to: its exact value, or the dividend of its first division by zero. Operands
come before their operator, the left one first. -/
inductive Comes : Term → Except Int Int → Prop
  | literal (literal : Literal) : Comes (.literal literal) (.ok literal.value)
  | negative {operand : Term} {a : Int} (inner : Comes operand (.ok a)) :
      Comes (.negative operand) (.ok (-a))
  | inOperand {operand : Term} {a : Int} (inner : Comes operand (.error a)) :
      Comes (.negative operand) (.error a)
  | inLeft {left right : Term} {operator : Operator} {a : Int} (first : Comes left (.error a)) :
      Comes (.operation left operator right) (.error a)
  | inRight {left right : Term} {operator : Operator} {a b : Int} (first : Comes left (.ok a))
      (second : Comes right (.error b)) : Comes (.operation left operator right) (.error b)
  | operation {left right : Term} {operator : Operator} {a b : Int} {result : Except Int Int}
      (first : Comes left (.ok a)) (second : Comes right (.ok b))
      (gives : operator.Gives a b result) : Comes (.operation left operator right) result

def negation : Token := ⟨.minus, "-"⟩

def node : Term → Node
  | .literal number => .number number.token number.value
  | .negative operand => .unary negation negation.literal operand.node
  | .operation left operator right =>
    .binary operator.token left.node operator.token.literal right.node

/-- The canonical text of a term. -/
def source (term : Term) : String := term.node.text

end Term

theorem isQuotient_iff {a b q : Int} (nonzero : b ≠ 0) : IsQuotient a b q ↔ q = a.tdiv b := by
  constructor
  · rintro ⟨r, whole, small, side⟩
    have product : b * q = q * b := Int.mul_comm b q
    rcases Int.le_total 0 a with nonneg | nonpos
    · have above : 0 ≤ r := by
        rcases side with rfl | same
        · exact Int.le_refl 0
        · exact Int.sign_nonneg_iff.mp (same ▸ Int.sign_nonneg_iff.mpr nonneg)
      exact ((Int.tdiv_tmod_unique nonneg nonzero).mpr ⟨by omega, above, by omega⟩).1.symm
    · have below : r ≤ 0 := by
        rcases side with rfl | same
        · exact Int.le_refl 0
        · exact Int.sign_nonpos_iff.mp (same ▸ Int.sign_nonpos_iff.mpr nonpos)
      exact ((Int.tdiv_tmod_unique' nonpos nonzero).mpr ⟨by omega, by omega, below⟩).1.symm
  · rintro rfl
    refine ⟨a.tmod b, Int.tdiv_mul_add_tmod a b, ?_, ?_⟩
    · rw [Int.natAbs_tmod]
      exact Nat.mod_lt _ (by omega)
    · by_cases divides : b ∣ a
      · exact .inl (Int.tmod_eq_zero_of_dvd divides)
      · exact .inr (by rw [Int.sign_tmod, if_neg divides])

theorem not_isQuotient_zero {a q : Int} : ¬IsQuotient a 0 q := by
  rintro ⟨r, _, small, _⟩
  exact absurd small (Nat.not_lt_zero _)

/-- A result as the language has it. -/
def settled : Except Int Int → Except Cause Value
  | .ok value => .ok (.integer value)
  | .error dividend => .error (.divisionByZero dividend)

theorem settled_inj {result other : Except Int Int} (same : settled result = settled other) :
    result = other := by
  cases result <;> cases other <;> cases same <;> rfl

namespace Operator

/-- The operators of the language are exact. -/
theorem Gives.computed {operator : Operator} {a b : Int} {result : Except Int Int}
    (gives : operator.Gives a b result) :
    (Value.integer a).binaryOperation operator.token.literal (.integer b) = settled result := by
  cases gives with
  | sum => rfl
  | difference => rfl
  | product => rfl
  | zeroDivision => rfl
  | quotient exact =>
      have nonzero : b ≠ 0 := by
        rintro rfl
        exact not_isQuotient_zero exact
      rw [(isQuotient_iff nonzero).mp exact]
      exact if_neg nonzero

theorem exists_gives (operator : Operator) (a b : Int) : ∃ result, operator.Gives a b result := by
  cases operator with
  | plus => exact ⟨_, .sum a b⟩
  | minus => exact ⟨_, .difference a b⟩
  | asterisk => exact ⟨_, .product a b⟩
  | slash =>
      by_cases zero : b = 0
      · rw [zero]
        exact ⟨_, .zeroDivision a⟩
      · exact ⟨_, .quotient ((isQuotient_iff zero).mpr rfl)⟩

theorem Gives.unique {operator : Operator} {a b : Int} {result other : Except Int Int}
    (gives : operator.Gives a b result) (gives' : operator.Gives a b other) : other = result :=
  settled_inj (gives'.computed.symm.trans gives.computed)

end Operator

namespace Term

theorem exists_comes (term : Term) : ∃ result, term.Comes result := by
  induction term with
  | literal number => exact ⟨_, .literal number⟩
  | negative operand ih =>
      obtain ⟨dividend | a, inner⟩ := ih
      · exact ⟨_, .inOperand inner⟩
      · exact ⟨_, .negative inner⟩
  | operation left operator right ih ih' =>
      obtain ⟨dividend | a, first⟩ := ih
      · exact ⟨_, .inLeft first⟩
      obtain ⟨dividend | b, second⟩ := ih'
      · exact ⟨_, .inRight first second⟩
      obtain ⟨result, gives⟩ := operator.exists_gives a b
      exact ⟨_, .operation first second gives⟩

theorem Comes.unique {term : Term} {result other : Except Int Int} (comes : term.Comes result)
    (comes' : term.Comes other) : other = result := by
  induction comes generalizing other with
  | literal number =>
      cases comes'
      rfl
  | negative inner ih =>
      cases comes' with
      | negative inner' => cases ih inner'; rfl
      | inOperand inner' => cases ih inner'
  | inOperand inner ih =>
      cases comes' with
      | negative inner' => cases ih inner'
      | inOperand inner' => exact ih inner'
  | inLeft first ih =>
      cases comes' with
      | inLeft first' => exact ih first'
      | inRight first' => cases ih first'
      | operation first' => cases ih first'
  | inRight first second ih ih' =>
      cases comes' with
      | inLeft first' => cases ih first'
      | inRight first' second' => exact ih' second'
      | operation first' second' => cases ih' second'
  | operation first second gives ih ih' =>
      cases comes' with
      | inLeft first' => cases ih first'
      | inRight first' second' => cases ih' second'
      | operation first' second' gives' =>
          cases ih first'
          cases ih' second'
          exact gives.unique gives'

/-- The canonical text is read as the term. -/
theorem prints (level : Level) (term : Term) : Prints (.expression level term.node) := by
  induction term generalizing level with
  | literal number => exact Grammar.prints_literal number.token_lexical rfl number.derives
  | negative operand ih =>
      have lexical : negation.Lexical := .symbol (c := '-') rfl
      exact Grammar.prints_unary lexical (.inl rfl) (ih .unary)
  | operation left operator right ih ih' =>
      exact Grammar.prints_binary operator.token_lexical operator.operates (ih _) (ih' _)

theorem node_of_unmarked {node : Node} {term : Term} (same : node.unmarked = term.node.unmarked) :
    node = term.node := by
  induction term generalizing node with
  | literal number =>
      cases node <;> simp only [Term.node, Node.unmarked, reduceCtorEq] at same ⊢
      exact same
  | negative operand ih =>
      cases node <;> simp only [Term.node, Node.unmarked, reduceCtorEq] at same
      injection same with token operator inner
      rw [token, operator, ih inner, Term.node]
  | operation left operator right ih ih' =>
      cases node <;> simp only [Term.node, Node.unmarked, reduceCtorEq] at same
      injection same with token first operator second
      rw [token, operator, ih first, ih' second, Term.node]

theorem read_source {depth : Nat} (term : Term)
    (bounded : .tooDeep ∉ (Grammar.readText depth term.source).mistakes) :
    ∃ token, Grammar.readText depth term.source = ⟨.program [.statement token term.node], []⟩ := by
  obtain ⟨token, again, read, same⟩ := (term.prints .equality).read_expression bounded
  rw [node_of_unmarked same] at read
  exact ⟨token, read⟩

end Term

open Evaluation (Machine Raise Stop depthLimit evaluate evaluateWithin evaluateWithin_deeper)
open Evaluation.Raising (byHand byHand_outcome entering eval fail outcome outcome_bind raised_eval
  settle)

/-- How a run ends with a result: with its value, or with an error unless its message is too long. -/
def ended : Except Int Int → Machine → Except Stop (Except Value Value) × Machine
  | .ok value, machine => (.ok (.ok (.integer value)), machine)
  | .error dividend, machine =>
    if Numeral.isWritable dividend then
      (.ok (.error (.error (.divisionByZero dividend) machine.store.tags)),
        { machine with store := machine.store.countTag })
    else (.error .unwritable, machine)

theorem outcome_fail (cause : Cause) (machine : Machine) :
    outcome (fail cause) machine =
      if cause.isWritable then
        (.ok (.error (.error cause machine.store.tags)),
          { machine with store := machine.store.countTag })
      else (.error .unwritable, machine) := by
  unfold fail
  split <;> rfl

theorem outcome_settled (result : Except Int Int) (machine : Machine) :
    outcome (settle (settled result)) machine = ended result machine := by
  cases result with
  | ok value => rfl
  | error dividend => exact outcome_fail (.divisionByZero dividend) machine

theorem ended_error_bind {run : Raise (StateM Machine) Value} {machine reached : Machine}
    {dividend : Int} (fails : outcome run machine = ended (.error dividend) reached)
    (next : Value → Raise (StateM Machine) Value) :
    outcome (run >>= next) machine = ended (.error dividend) reached := by
  rw [outcome_bind, fails]
  simp only [ended]
  generalize Numeral.isWritable dividend = writable
  cases writable <;> rfl

theorem ended_ok_bind {run : Raise (StateM Machine) Value} {machine reached : Machine}
    {value : Int} (ends : outcome run machine = ended (.ok value) reached)
    (next : Value → Raise (StateM Machine) Value) :
    outcome (run >>= next) machine = outcome (next (.integer value)) reached := by
  rw [outcome_bind, ends]
  rfl

theorem exists_below {node : Node} {depth : Nat} (enough : node.height ≤ depth) :
    ∃ below, depth = below + 1 := by
  have := node.height_pos
  exact ⟨depth - 1, by omega⟩

/-- Only the count of visits changes on the way to the result. -/
theorem Term.Comes.runs {term : Term} {result : Except Int Int} (comes : term.Comes result)
    {depth : Nat} (enough : term.node.height ≤ depth) (scope : Nat) (machine : Machine) :
    ∃ count, outcome (eval none depth term.node scope) machine =
      ended result { machine with visited := count } := by
  -- Where an operand fails, what follows it is skipped as in any run, so the error is the first one.
  induction comes generalizing depth machine with
  | literal number =>
      obtain ⟨depth, rfl⟩ := exists_below enough
      exact ⟨machine.visited + 1, rfl⟩
  | negative inner ih =>
      obtain ⟨depth, rfl⟩ := exists_below enough
      obtain ⟨count, ends⟩ := ih (Nat.le_of_succ_le_succ enough) (entering machine)
      exact ⟨count, ended_ok_bind ends _⟩
  | inOperand inner ih =>
      obtain ⟨depth, rfl⟩ := exists_below enough
      obtain ⟨count, ends⟩ := ih (Nat.le_of_succ_le_succ enough) (entering machine)
      exact ⟨count, ended_error_bind ends _⟩
  | inLeft first ih =>
      obtain ⟨depth, rfl⟩ := exists_below enough
      have bound := Nat.max_le.mp (Nat.le_of_succ_le_succ enough)
      obtain ⟨count, ends⟩ := ih bound.1 (entering machine)
      exact ⟨count, ended_error_bind ends _⟩
  | inRight first second ih ih' =>
      obtain ⟨depth, rfl⟩ := exists_below enough
      have bound := Nat.max_le.mp (Nat.le_of_succ_le_succ enough)
      obtain ⟨count, ends⟩ := ih bound.1 (entering machine)
      obtain ⟨count', ends'⟩ := ih' bound.2 { machine with visited := count }
      exact ⟨count', (ended_ok_bind ends _).trans (ended_error_bind ends' _)⟩
  | operation first second gives ih ih' =>
      obtain ⟨depth, rfl⟩ := exists_below enough
      have bound := Nat.max_le.mp (Nat.le_of_succ_le_succ enough)
      obtain ⟨count, ends⟩ := ih bound.1 (entering machine)
      obtain ⟨count', ends'⟩ := ih' bound.2 { machine with visited := count }
      refine ⟨count', (ended_ok_bind ends _).trans ((ended_ok_bind ends' _).trans ?_)⟩
      rw [gives.computed, outcome_settled]

/-- The program of a term ends as the term does. -/
theorem Term.Comes.runs_program {term : Term} {result : Except Int Int} (comes : term.Comes result)
    {depth : Nat} (enough : term.node.height ≤ depth) (token : Token) (scope : Nat)
    (machine : Machine) :
    ∃ count,
      outcome (eval none (depth + 2) (.program [.statement token term.node]) scope) machine =
        ended result { machine with visited := count } := by
  obtain ⟨count, ends⟩ := comes.runs enough scope (entering (entering machine))
  cases result with
  | ok value => exact ⟨count, ended_ok_bind ends _⟩
  | error dividend => exact ⟨count, ended_error_bind ends _⟩

/-- What a run gives that ends with a result. -/
def answer (tag : Nat) : Except Int Int → Except Fault Value
  | .ok value => .ok (.integer value)
  | .error dividend =>
    if Numeral.isWritable dividend then .ok (.error (.divisionByZero dividend) tag)
    else .error .unwritableInteger

theorem Term.Comes.evaluated {term : Term} {result : Except Int Int} (comes : term.Comes result)
    {depth : Nat} (enough : term.node.height + 2 ≤ depth) (token : Token) (scope : Nat)
    (store : Store) :
    (evaluateWithin depth none (.program [.statement token term.node]) scope store).result =
      answer store.tags result := by
  obtain ⟨depth, rfl⟩ : ∃ below, depth = below + 2 := ⟨depth - 2, by omega⟩
  obtain ⟨count, ends⟩ := comes.runs_program (Nat.le_of_add_le_add_right enough) token scope
    ⟨store, 0⟩
  unfold evaluateWithin
  rw [← byHand_outcome, raised_eval, ends]
  cases result with
  | ok value => rfl
  | error dividend =>
      by_cases writable : Numeral.isWritable dividend
      · rw [ended, answer, if_pos writable, if_pos writable]
        rfl
      · rw [ended, answer, if_neg writable, if_neg writable]
        rfl

/-- Interpreting the text of a term is exact. The result is the value of the term if no division by
zero comes up, and else the error of the first one, with its dividend in the message. -/
theorem interpreted_exactly (term : Term) (scope : Nat) (store : Store)
    (read : Mistake.tooDeep.message ∉ (Parsed.ofText term.source).messages)
    (run : ∀ outcome cause tag, interpret none term.source scope store = .ok outcome →
      outcome.result = .ok (.error cause tag) → cause.message ≠ Cause.tooDeep.message) :
    (∃ result, ∀ other, term.Comes other ↔ other = result) ∧
      ∃ outcome, interpret none term.source scope store = .ok outcome ∧
        (∀ value, term.Comes (.ok value) → outcome.result = .ok (.integer value)) ∧
        ∀ dividend, term.Comes (.error dividend) → Numeral.isWritable dividend →
          ∃ cause tag, outcome.result = .ok (.error cause tag) ∧
            cause.message = "division by zero: " ++ Numeral.write dividend ++ " / 0" := by
  obtain ⟨result, comes⟩ := term.exists_comes
  rw [Parsed.tooDeep_mem_messages] at read
  obtain ⟨token, parsed⟩ := term.read_source read
  let program : Node := .program [.statement token term.node]
  have interpreted : interpret none term.source scope store =
      .ok (evaluate none program scope store) := by
    simp only [interpret, readProgram, Parsed.ofText, parsed]
    rfl
  have shallow : ∀ tag,
      (evaluateWithin depthLimit none program scope store).result ≠ .ok (.error .tooDeep tag) :=
    fun tag deep => run _ .tooDeep tag interpreted deep rfl
  have answers : (evaluate none program scope store).result = answer store.tags result := by
    -- The run is followed with levels to spare, and is the same with those of the limit.
    have within := evaluateWithin_deeper (Nat.le_max_left depthLimit (term.node.height + 2)) shallow
    rw [evaluate, ← within]
    exact comes.evaluated (Nat.le_max_right _ _) token scope store
  refine ⟨⟨result, fun other => ⟨comes.unique, fun same => same ▸ comes⟩⟩, _, interpreted, ?_, ?_⟩
  · intro value valued
    rw [answers, ← comes.unique valued]
    rfl
  · intro dividend divided writable
    rw [answers, ← comes.unique divided, answer, if_pos writable]
    exact ⟨.divisionByZero dividend, store.tags, rfl, rfl⟩

/-- A quotient is rounded toward zero, and the left one of two divisions by zero is the first. -/
theorem interpreted_exactly_signed :
    let two : Term := .literal ⟨['0', '2'], by decide, by simp [isDigit], by decide⟩
    let seven : Term := .literal ⟨['7'], by decide, by simp [isDigit], by decide⟩
    let zero : Term := .operation two .minus two
    let rounded : Term := .operation (.operation (.negative seven) .slash two) .asterisk two
    let failing : Term :=
      .operation (.operation rounded .slash zero) .plus (.operation two .slash zero)
    let store := Store.empty.addScope none
    rounded.source = "(((-7) / 02) * 02)" ∧
      (∃ outcome, interpret none rounded.source 0 store = .ok outcome ∧
        outcome.result = .ok (.integer (-6))) ∧
      ∃ outcome cause tag, interpret none failing.source 0 store = .ok outcome ∧
        outcome.result = .ok (.error cause tag) ∧ cause.message = "division by zero: -6 / 0" := by
  intro two seven zero rounded failing store
  have two_comes : two.Comes (.ok 2) := .literal _
  have quotient : (Term.operation (.negative seven) .slash two).Comes (.ok (-3)) :=
    .operation (.negative (.literal _)) two_comes (.quotient ⟨-1, by decide⟩)
  have rounded_comes : rounded.Comes (.ok (-6)) :=
    .operation quotient two_comes (.product (-3) 2)
  have zero_comes : zero.Comes (.ok 0) := .operation two_comes two_comes (.difference 2 2)
  have failing_comes : failing.Comes (.error (-6)) :=
    .inLeft (.operation rounded_comes zero_comes (.zeroDivision (-6)))
  have read : ∀ term ∈ [rounded, failing],
      Mistake.tooDeep.message ∉ (Parsed.ofText term.source).messages := by decide +kernel
  have texts : ∀ term ∈ [rounded, failing],
      (interpret none term.source 0 store).toOption.bind
        (fun outcome => outcome.result.toOption.map Value.text) ∈
          [some "-6", some "ERROR: division by zero: -6 / 0"] := by decide +kernel
  have run : ∀ term ∈ [rounded, failing], ∀ outcome cause tag,
      interpret none term.source 0 store = .ok outcome →
        outcome.result = .ok (.error cause tag) → cause.message ≠ Cause.tooDeep.message := by
    intro term member outcome cause tag interpreted failed same
    have text := texts term member
    rw [interpreted] at text
    simp only [Except.toOption, Option.bind_some, failed, Option.map_some, Value.text, same] at text
    revert text
    decide +kernel
  have first := (interpreted_exactly rounded 0 store (read _ (by simp)) (run _ (by simp))).2
  have second := (interpreted_exactly failing 0 store (read _ (by simp)) (run _ (by simp))).2
  obtain ⟨outcome, interpreted, valued, _⟩ := first
  obtain ⟨outcome', interpreted', _, failed⟩ := second
  obtain ⟨cause, tag, result, message⟩ := failed (-6) failing_comes (by decide +kernel)
  exact ⟨by decide +kernel, ⟨outcome, interpreted, valued (-6) rounded_comes⟩,
    outcome', cause, tag, interpreted', result, message⟩

end MonkeyLang.Arithmetic
