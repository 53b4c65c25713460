import MonkeyLang.Proofs.Evaluation.Built
import MonkeyLang.Proofs.Grammar.Depth
import MonkeyLang.Proofs.Grammar.Part

/-!
What is written of a value, interpreted. A number, a truth value or a function that a program comes to
or binds is had again in this way, a function with the scope it was made in
(`printed_value_read_back`).
-/

namespace MonkeyLang

namespace Token

/-- The token that a number is written as. -/
def numeral (n : Nat) : Token := ⟨.number, String.ofList (Nat.toDigits 10 n)⟩

theorem numeral_lexical (n : Nat) : (numeral n).Lexical :=
  lexical_number Nat.toDigits_ne_nil fun _ => Numeral.digit_of_mem_toDigits

theorem read?_numeral {n : Nat} (short : (Nat.toDigits 10 n).length ≤ Numeral.digitLimit) :
    Numeral.read? (numeral n).literal.toList = some (n : Int) := by
  rw [numeral, String.toList_ofList]
  exact Numeral.read?_toDigits short

theorem write_natural (n : Nat) : Numeral.write n = (numeral n).literal :=
  Nat.toString_eq_ofList_toDigits

theorem scan_numeral (n : Nat) : scan (numeral n).literal.toList = [numeral n] :=
  Grammar.Scans.alone (Grammar.scans_literal (numeral_lexical n))

theorem scan_natural (n : Nat) : scan (Numeral.write n).toList = [numeral n] := by
  rw [write_natural, scan_numeral]

theorem scan_negative (n : Nat) :
    scan (Numeral.write (Int.negSucc n)).toList = [fixed .minus, numeral (n + 1)] := by
  have shape : (Numeral.write (Int.negSucc n)).toList = '-' :: (numeral (n + 1)).literal.toList := by
    change ("-" ++ Numeral.write (n + 1 : Nat)).toList = _
    rw [write_natural, String.toList_append]
    rfl
  have sign : symbolKind? '-' = some .minus := rfl
  rw [shape, scan_fixed sign (by decide) (by decide), scan_numeral]

end Token

namespace Grammar

open Token (fixed numeral read?_numeral)

section

variable {depth : Nat} {cursor reached : Cursor} {node : Node}

theorem outcome_operand_number {sub : Precedence → Rule Node} {value : Int}
    (kind : cursor.current.kind = .number)
    (read : Numeral.read? cursor.current.literal.toList = some value) :
    outcome (operand sub) cursor = (.ok (.number cursor.current value), cursor) := by
  simp only [operand, outcome_current_bind, kind, number, read]
  rfl

theorem outcome_operand_minus {sub : Precedence → Rule Node} (kind : cursor.current.kind = .minus)
    (inner : outcome (sub .unary) cursor.advance = (.ok node, reached)) :
    outcome (operand sub) cursor =
      (.ok (.unary cursor.current cursor.current.literal node), reached) := by
  simp only [operand, outcome_current_bind, kind, unary, outcome_advance_bind]
  exact outcome_bind_ok inner

end

theorem readTokens_truth (depth : Nat) (value : Bool) :
    let token := fixed (if value then .trueWord else .falseWord)
    readTokens (depth + 1) [token] = ⟨.program [.statement token (.truth token value)], []⟩ := by
  cases value <;> rfl

variable {n : Nat}

theorem readTokens_natural (depth : Nat)
    (short : (Nat.toDigits 10 n).length ≤ Numeral.digitLimit) :
    readTokens (depth + 1) [numeral n] =
      ⟨.program [.statement (numeral n) (.number (numeral n) n)], []⟩ := by
  have first : outcome (operand (expression depth)) (Cursor.start [numeral n]) =
      (.ok (.number (numeral n) n), Cursor.start [numeral n]) :=
    outcome_operand_number rfl (read?_numeral short)
  have starts : Token.Kind.number ∈ starters := by decide
  exact readTokens_last starts (outcome_expression_last .lowest first rfl) rfl

theorem readTokens_negative (depth : Nat)
    (short : (Nat.toDigits 10 n).length ≤ Numeral.digitLimit) :
    readTokens (depth + 2) [fixed .minus, numeral n] =
      ⟨.program [.statement (fixed .minus)
        (.unary (fixed .minus) "-" (.number (numeral n) n))], []⟩ := by
  let cursor := (Cursor.start [fixed .minus, numeral n]).advance
  have inner : outcome (expression (depth + 1) .unary) cursor =
      (.ok (.number (numeral n) n), cursor) :=
    outcome_expression_last .unary (outcome_operand_number rfl (read?_numeral short)) rfl
  have first : outcome (operand (expression (depth + 1))) (Cursor.start [fixed .minus, numeral n]) =
      (.ok (.unary (fixed .minus) "-" (.number (numeral n) n)), cursor) :=
    outcome_operand_minus rfl inner
  exact readTokens_last (by decide) (outcome_expression_last .lowest first rfl) rfl

end Grammar

namespace Evaluation

open Grammar (Mistake Part readText)

/-- Interpreting a source in a scope comes to a value. -/
def Gives (source : String) (scope : Nat) (store : Store) (value : Value) : Prop :=
  ∃ outcome, interpret none source scope store = .ok outcome ∧ outcome.result = .ok value

/-- What is written of a value is interpreted as that value: a number or a truth value in any scope,
and a function in the scope that it was made in, with a body that is the same but for the tokens of
expression statements. -/
def ReadsBack (value : Value) : Prop :=
  match value with
  | .integer n => (Nat.toDigits 10 n.natAbs).length ≤ Numeral.digitLimit →
    ∃ text, value.inspect = .ok text ∧ ∀ scope store, Gives text scope store (.integer n)
  | .boolean truth =>
    ∃ text, value.inspect = .ok text ∧ ∀ scope store, Gives text scope store (.boolean truth)
  | .function parameters body scope _ => ∀ text, value.inspect = .ok text →
    Mistake.tooDeep.message ∉ (Parsed.ofText text).messages →
      ∀ store, ∃ again tag, Gives text scope store (.function parameters again scope tag) ∧
        again.unmarked = body.unmarked
  | .null | .returned .. | .error .. => True

theorem gives_of_read {source : String} {program : Node} (read : Parsed.ofText source = ⟨program, []⟩)
    {scope : Nat} {store : Store} {value : Value}
    (ends : (evaluate none program scope store).result = .ok value) :
    Gives source scope store value := by
  refine ⟨evaluate none program scope store, ?_, ends⟩
  simp only [interpret, readProgram, read]
  rfl

theorem gives_of_scan {source : String} {tokens : List Token} {program : Node}
    (scans : Token.scan source.toList = tokens)
    (read : Grammar.readTokens Grammar.depthLimit tokens = ⟨program, []⟩)
    {scope : Nat} {store : Store} {value : Value}
    (ends : (evaluate none program scope store).result = .ok value) :
    Gives source scope store value := by
  apply gives_of_read _ ends
  rw [Parsed.ofText, readText, scans, read]

theorem readsBack_integer (n : Int) : ReadsBack (.integer n) := by
  intro short
  have inspected : (Value.integer n).inspect = .ok (Numeral.write n) := by
    have writable : (Value.integer n).isWritable := Numeral.isWritable_iff.mpr short
    have low : ¬Node.heightLimit < (Value.integer n).height := (by decide : ¬Node.heightLimit < 1)
    rw [Value.inspect, if_neg low, if_pos writable]
    rfl
  refine ⟨_, inspected, fun scope store => ?_⟩
  cases n with
  | ofNat n => exact gives_of_scan (Token.scan_natural n) (Grammar.readTokens_natural 499 short) rfl
  | negSucc n =>
      exact gives_of_scan (Token.scan_negative n) (Grammar.readTokens_negative 498 short) rfl

theorem readsBack_boolean (truth : Bool) : ReadsBack (.boolean truth) := by
  refine ⟨if truth then "true" else "false", rfl, fun scope store => ?_⟩
  apply gives_of_scan _ (Grammar.readTokens_truth 499 truth) rfl
  cases truth <;> decide +kernel

theorem text_of_inspect {value : Value} {text : String} (inspected : value.inspect = .ok text) :
    text = value.text := by
  unfold Value.inspect at inspected
  split at inspected
  · cases inspected
  · split at inspected
    · exact (Except.ok.inj inspected).symm
    · cases inspected

/-- The text of a function is that of the node it was made from. -/
theorem text_function (parameters : List Identifier) (body : Node) (scope tag : Nat) :
    (Value.function parameters body scope tag).text =
      Node.text (.function (Token.fixed .fnWord) parameters body) := by
  have opening : "fn(" = (Token.fixed .fnWord).literal ++ "(" := by decide
  rw [Value.text, Node.text, opening]

theorem readsBack_function {keyword : Token} {parameters : List Identifier} {body : Node}
    (part : Part (.function keyword parameters body)) (scope tag : Nat) :
    ReadsBack (.function parameters body scope tag) := by
  obtain ⟨rfl, prints⟩ := part.function
  intro text inspected shallow store
  rw [text_of_inspect inspected, text_function] at shallow ⊢
  rw [Parsed.tooDeep_mem_messages] at shallow
  obtain ⟨first, again, read, same⟩ := prints.read_expression shallow
  cases again <;> simp only [Node.unmarked, reduceCtorEq] at same
  injection same with keyword named inner
  subst keyword named
  exact ⟨_, store.tags, gives_of_read read rfl, inner⟩

/-- The nodes of accepted programs, but for the programs, were read of some of the tokens. -/
theorem part_of_within {node : Node} (within : node.Within Accepted) :
    (∃ nodes, node = .program nodes ∧ ∀ part ∈ nodes, Part part) ∨ Part node := by
  induction within with
  | whole accepted =>
      obtain ⟨source, accepted⟩ := accepted
      obtain ⟨clean, rfl⟩ := readProgram_eq_ok.mp accepted
      obtain ⟨nodes, shape, derives⟩ := Grammar.derives_of_clean clean
      exact .inl ⟨nodes, shape, derives.parts (.scan source.toList)⟩
  | part inside member ih =>
      rcases ih with ⟨nodes, rfl, parts⟩ | part
      · exact .inr (parts _ member)
      · exact .inr (part.inside member)

theorem readsBack_of_sound {value : Value} {count : Nat} (sound : value.Sound Accepted count) :
    ReadsBack value := by
  cases value with
  | integer n => exact readsBack_integer n
  | boolean truth => exact readsBack_boolean truth
  | function parameters body scope tag =>
      obtain ⟨⟨keyword, within⟩, -⟩ := sound
      rcases part_of_within within with ⟨nodes, wrong, -⟩ | part
      · cases wrong
      · exact readsBack_function part scope tag
  | null | returned | error => trivial

variable {programs : Node → Prop} {store : Store}

/-- Stores as they come about: scopes are added, on their own or in others, and programs are run in
any of them, each under a limit of its own and however it ended. -/
inductive Arises (programs : Node → Prop) : Store → Prop
  | empty : Arises programs Store.empty
  | scope {store : Store} (earlier : Arises programs store) {outer : Option Nat}
      (known : ∀ around ∈ outer, around < store.scopes.size) :
      Arises programs (store.addScope outer)
  | run {store : Store} {program : Node} {scope : Nat} (earlier : Arises programs store)
      (member : programs program) (known : scope < store.scopes.size) (limit : Option Int)
      (depth : Nat) : Arises programs (evaluateWithin depth limit program scope store).store

theorem Arises.sound (arises : Arises programs store) : store.Sound programs := by
  induction arises with
  | empty => exact .empty
  | scope earlier known ih => exact ih.addScope known
  | run earlier member known limit depth ih =>
      exact (settled_evaluateWithin ih known member limit depth).store

/-- The values of a run: what it yields, in the end or at any of its nodes, and what is bound in any
scope at some point of it or behind it. -/
inductive Occurs (limit : Option Int) (depth : Nat) (program : Node) (scope : Nat) (store : Store) :
    Value → Prop
  | result {value : Value}
      (ends : (evaluateWithin depth limit program scope store).result = .ok value) :
      Occurs limit depth program scope store value
  | computed {value : Value} {machine : Machine}
      (inside : .computed value machine ∈ points limit depth program scope ⟨store, 0⟩) :
      Occurs limit depth program scope store value
  | bound {value : Value} {point : Point}
      (inside : point ∈ points limit depth program scope ⟨store, 0⟩)
      (binds : point.machine.store.Binds value) : Occurs limit depth program scope store value
  | left {value : Value}
      (binds : (evaluateWithin depth limit program scope store).store.Binds value) :
      Occurs limit depth program scope store value

theorem Occurs.sound {limit : Option Int} {depth : Nat} {program : Node} {scope : Nat}
    {value : Value} (occurs : Occurs limit depth program scope store value)
    (sound : store.Sound programs) (known : scope < store.scopes.size)
    (member : programs program) : ∃ count, value.Sound programs count := by
  have settled := settled_evaluateWithin sound known member limit depth
  have within : ∀ point ∈ points limit depth program scope ⟨store, 0⟩, point.Sound programs := by
    obtain ⟨-, news, noted, passed⟩ := (trail_program sound known member limit depth).passed
    intro point inside
    exact passed.points point ((congrArg (point ∈ ·) noted).mp inside)
  cases occurs with
  | result ends => exact ⟨_, settled.value value ends⟩
  | computed inside => exact ⟨_, (within _ inside).fits⟩
  | bound inside binds => exact ⟨_, ((within _ inside).store.usable binds).sound⟩
  | left binds => exact ⟨_, (settled.store.usable binds).sound⟩

/-- A number, a truth value or a function that a run of an accepted program yields or binds is had
again by interpreting what is written of it. -/
theorem printed_value_read_back (arises : Arises Accepted store) {program : Node}
    (accepted : Accepted program) {scope : Nat} (known : scope < store.scopes.size)
    (limit : Option Int) (depth : Nat) {value : Value}
    (occurs : Occurs limit depth program scope store value) : ReadsBack value := by
  obtain ⟨count, sound⟩ := occurs.sound arises.sound known accepted
  exact readsBack_of_sound sound

/-- A function that was made in the scope of a call. -/
theorem printed_value_read_back_closure :
    let first := (Parsed.ofText "let add = fn(a) \x7b fn(b, c) \x7b a + b * -7; c \x7d \x7d").program
    let program := (Parsed.ofText "add(-7)").program
    let store := (evaluateWithin 50 none first 0 (Store.empty.addScope none)).store
    let text := "fn(b, c) \x7b (a + (b * (-7))); c \x7d"
    Arises Accepted store ∧ Accepted program ∧ 0 < store.scopes.size ∧
      ∃ parameters body scope tag,
        Occurs none 50 program 0 store (.function parameters body scope tag) ∧
        (Value.function parameters body scope tag).inspect = .ok text ∧
        ∀ later, ∃ again tag', Gives text scope later (.function parameters again scope tag') ∧
          again.unmarked = body.unmarked := by
  intro first program store text
  have clean : (Parsed.ofText
      "let add = fn(a) \x7b fn(b, c) \x7b a + b * -7; c \x7d \x7d").mistakes = [] := by
    decide +kernel
  have clean' : (Parsed.ofText "add(-7)").mistakes = [] := by decide +kernel
  have fresh : Arises Accepted (Store.empty.addScope none) := .scope .empty nofun
  have arises : Arises Accepted store :=
    .run fresh (accepted_of_clean clean) (by decide) none 50
  have accepted : Accepted program := accepted_of_clean clean'
  have known : 0 < store.scopes.size := by decide +kernel
  have shown : (evaluateWithin 50 none program 0 store).result.toOption.map
      (fun value => (value.kind, value.inspect.toOption)) = some (.function, some text) := by
    decide +kernel
  have shallow : Mistake.tooDeep.message ∉ (Parsed.ofText text).messages := by decide +kernel
  refine ⟨arises, accepted, known, ?_⟩
  cases ends : (evaluateWithin 50 none program 0 store).result with
  | error fault =>
      rw [ends] at shown
      cases shown
  | ok value =>
      rw [ends] at shown
      cases inspected : value.inspect with
      | error fault => simp [Except.toOption, inspected] at shown
      | ok written =>
          simp only [Except.toOption, Option.map_some, inspected, Option.some.injEq,
            Prod.mk.injEq] at shown
          obtain ⟨kind, rfl⟩ := shown
          cases value <;> cases kind
          have back := printed_value_read_back arises accepted known none 50 (.result ends)
          exact ⟨_, _, _, _, .result ends, inspected, back _ inspected shallow⟩

end Evaluation

end MonkeyLang
