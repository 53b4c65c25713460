import MonkeyLang.Evaluation
import MonkeyLang.Proofs.Grammar.RoundTrip
import MonkeyLang.Proofs.Node.Unmarked

/-!
Evaluation does not look at the tokens of expression statements: taking them out of a tree, and of the
functions in store, takes them out of what the tree comes to (`evaluateWithin_unmarked`). Hence the
canonical text of a program means what the program does (`canonical_text_evaluated_alike`).
-/

namespace MonkeyLang

namespace Value

/-- The value with the tokens of expression statements taken out of its body, if it is a function. -/
def unmarked : Value → Value
  | returned inner tag => returned (unmarked inner) tag
  | function parameters body scope tag => function parameters body.unmarked scope tag
  | integer value => integer value
  | boolean value => boolean value
  | null => null
  | error cause tag => error cause tag

@[simp]
theorem kind_unmarked (value : Value) : value.unmarked.kind = value.kind := by
  cases value <;> rfl

@[simp]
theorem isError_unmarked (value : Value) : value.unmarked.isError = value.isError := by
  cases value <;> rfl

@[simp]
theorem isReturned_unmarked (value : Value) : value.unmarked.isReturned = value.isReturned := by
  cases value <;> rfl

@[simp]
theorem isTruthy_unmarked (value : Value) : value.unmarked.isTruthy = value.isTruthy := by
  cases value <;> rfl

theorem unwrap_unmarked (value : Value) : value.unmarked.unwrap = value.unwrap.unmarked := by
  cases value <;> rfl

@[simp]
theorem identical_unmarked (left right : Value) :
    left.unmarked.identical right.unmarked = left.identical right := by
  cases left <;> cases right <;> rfl

theorem height_unmarked (value : Value) : value.unmarked.height = value.height := by
  induction value with
  | returned inner tag ih => rw [unmarked, height, height, ih]
  | function parameters body scope tag => rw [unmarked, height, height, Node.height_unmarked]
  | integer | boolean | null | error => rfl

theorem isWritable_unmarked (value : Value) : value.unmarked.isWritable = value.isWritable := by
  induction value with
  | returned inner tag ih => exact ih
  | integer | boolean | null | error | function => rfl

theorem text_unmarked (value : Value) : value.unmarked.text = value.text := by
  induction value with
  | returned inner tag ih => exact ih
  | function parameters body scope tag => rw [unmarked, text, text, Node.text_unmarked]
  | integer | boolean | null | error => rfl

theorem inspect_unmarked (value : Value) : value.unmarked.inspect = value.inspect := by
  rw [inspect, inspect, height_unmarked, isWritable_unmarked, text_unmarked]

/-- What can be seen of a value: its kind, and its text or the fault that keeps it from being written. -/
def seen (value : Value) : Kind × Except Fault String := (value.kind, value.inspect)

theorem seen_unmarked (value : Value) : value.unmarked.seen = value.seen := by
  rw [seen, seen, kind_unmarked, inspect_unmarked]

theorem unaryOperation_unmarked (operator : String) (operand : Value) :
    unaryOperation operator operand.unmarked =
      (unaryOperation operator operand).map unmarked := by
  unfold unaryOperation
  split
  · rw [isTruthy_unmarked]
    rfl
  · cases operand <;> rfl
  · rw [kind_unmarked]
    rfl

theorem integerOperation_unmarked (operator : String) (left right : Int) :
    (integerOperation operator left right).map unmarked = integerOperation operator left right := by
  unfold integerOperation
  split <;> try rfl
  split <;> rfl

theorem mixedOperation_unmarked (operator : String) (left right : Value) :
    mixedOperation operator left.unmarked right.unmarked =
      (mixedOperation operator left right).map unmarked := by
  unfold mixedOperation
  simp only [identical_unmarked, kind_unmarked]
  split
  · rfl
  · rfl
  · split <;> rfl

theorem binaryOperation_unmarked (operator : String) (left right : Value) :
    binaryOperation operator left.unmarked right.unmarked =
      (binaryOperation operator left right).map unmarked := by
  cases left with
  | integer a =>
      cases right with
      | integer b => exact (integerOperation_unmarked operator a b).symm
      | boolean | null | returned | error | function => exact mixedOperation_unmarked operator _ _
  | boolean | null | returned | error | function => exact mixedOperation_unmarked operator _ _

end Value

namespace Scope

def unmarked (scope : Scope) : Scope :=
  { scope with bindings := scope.bindings.map fun binding => (binding.1, binding.2.unmarked) }

theorem find?_unmarked (scope : Scope) (name : String) :
    scope.unmarked.find? name = (scope.find? name).map Value.unmarked := by
  rw [find?, find?, unmarked, List.find?_map, Option.map_map, Option.map_map]
  rfl

theorem assignAmong_unmarked (name : String) (value : Value) (bindings : List (String × Value)) :
    assignAmong name value.unmarked (bindings.map fun binding => (binding.1, binding.2.unmarked)) =
      (assignAmong name value bindings).map fun binding => (binding.1, binding.2.unmarked) := by
  induction bindings with
  | nil => rfl
  | cons binding rest ih =>
      rw [List.map_cons, assignAmong, assignAmong]
      split
      · rfl
      · rw [ih]
        rfl

theorem assign_unmarked (scope : Scope) (name : String) (value : Value) :
    (scope.assign name value).unmarked = scope.unmarked.assign name value.unmarked := by
  rw [assign, assign, unmarked, unmarked, assignAmong_unmarked]

end Scope

namespace Store

def unmarked (store : Store) : Store := { store with scopes := store.scopes.map Scope.unmarked }

@[simp]
theorem size_unmarked (store : Store) : store.unmarked.scopes.size = store.scopes.size :=
  Array.size_map

theorem getElem?_unmarked (store : Store) (scope : Nat) :
    store.unmarked.scopes[scope]? = store.scopes[scope]?.map Scope.unmarked :=
  Array.getElem?_map

theorem search_unmarked (store : Store) (name : String) (count scope : Nat) :
    store.unmarked.search name count scope = (store.search name count scope).map Value.unmarked := by
  induction count generalizing scope with
  | zero => rfl
  | succ count ih =>
      rw [search, search, getElem?_unmarked]
      cases store.scopes[scope]? with
      | none => rfl
      | some found =>
          have outer : found.unmarked.outer = found.outer := rfl
          simp only [Option.map_some, Scope.find?_unmarked, outer]
          cases found.find? name with
          | some value => rfl
          | none =>
              cases found.outer with
              | none => rfl
              | some around => exact ih around

theorem find?_unmarked (store : Store) (scope : Nat) (name : String) :
    store.unmarked.find? scope name = (store.find? scope name).map Value.unmarked := by
  rw [find?, find?, size_unmarked, search_unmarked]

theorem assign_unmarked (store : Store) (scope : Nat) (name : String) (value : Value) :
    (store.assign scope name value).unmarked = store.unmarked.assign scope name value.unmarked := by
  rw [assign, assign, unmarked, unmarked]
  congr 1
  apply Array.ext_getElem?
  intro index
  simp only [Array.getElem?_map, Array.getElem?_modify]
  split
  · cases store.scopes[index]? with
    | none => rfl
    | some found => exact congrArg some (Scope.assign_unmarked found name value)
  · rfl

theorem addScope_unmarked (store : Store) (outer : Option Nat) :
    (store.addScope outer).unmarked = store.unmarked.addScope outer := by
  rw [addScope, addScope, unmarked, unmarked, Array.map_push]
  rfl

theorem bindings_unmarked (store : Store) (scope : Nat) :
    store.unmarked.bindings scope =
      (store.bindings scope).map fun binding => (binding.1, binding.2.unmarked) := by
  rw [bindings, bindings, getElem?_unmarked]
  cases store.scopes[scope]? <;> rfl

end Store

namespace Evaluation

def Machine.unmarked (machine : Machine) : Machine :=
  { machine with store := machine.store.unmarked }

/-- The second run comes from an unmarked machine to what the first comes to, unmarked. -/
def Mirrors {α β : Type} (unmark : α → β) (run : Run α) (run' : Run β) : Prop :=
  ∀ machine : Machine, run'.run.run machine.unmarked =
    ((run.run.run machine).1.map unmark, (run.run.run machine).2.unmarked)

section

variable {α β γ δ : Type} {unmark : α → β} {unmark' : γ → δ}

theorem mirrors_pure {value : α} {value' : β} (same : value' = unmark value) :
    Mirrors unmark (pure value) (pure value') := by
  intro machine
  rw [same]
  rfl

theorem mirrors_throw (stop : Stop) : Mirrors unmark (throw stop) (throw stop) := fun _ => rfl

theorem mirrors_bind {run : Run α} {run' : Run β} {next : α → Run γ} {next' : β → Run δ}
    (first : Mirrors unmark run run')
    (second : ∀ value, Mirrors unmark' (next value) (next' (unmark value))) :
    Mirrors unmark' (run >>= next) (run' >>= next') := by
  intro machine
  have mirrored := first machine
  rw [ExceptT.run_bind, ExceptT.run_bind, StateT.run_bind, StateT.run_bind]
  generalize StateT.run (ExceptT.run run) machine = half at mirrored ⊢
  generalize StateT.run (ExceptT.run run') machine.unmarked = half' at mirrored ⊢
  subst mirrored
  rcases half with ⟨⟨stop⟩ | ⟨value⟩, reached⟩
  · rfl
  · exact second value reached

theorem mirrors_ite {condition : Prop} [Decidable condition] {yes no : Run α} {yes' no' : Run β}
    (first : Mirrors unmark yes yes') (second : Mirrors unmark no no') :
    Mirrors unmark (if condition then yes else no) (if condition then yes' else no') := by
  split
  · exact first
  · exact second

theorem mirrors_get : Mirrors Machine.unmarked get get := fun _ => rfl

theorem mirrors_modifyGet {change : Machine → α × Machine} {change' : Machine → β × Machine}
    (same : ∀ machine, change' machine.unmarked =
      (unmark (change machine).1, (change machine).2.unmarked)) :
    Mirrors unmark (modifyGet change) (modifyGet change') := by
  intro machine
  change (Except.ok (change' machine.unmarked).1, (change' machine.unmarked).2) = _
  rw [same]
  rfl

theorem mirrors_visit : Mirrors id visit visit := mirrors_modifyGet fun _ => rfl

theorem mirrors_newTag : Mirrors id newTag newTag := mirrors_modifyGet fun _ => rfl

theorem mirrors_newScope (outer : Nat) : Mirrors id (newScope outer) (newScope outer) := by
  apply mirrors_modifyGet
  intro machine
  simp only [Machine.unmarked, Store.addScope_unmarked, Store.size_unmarked, id]

theorem mirrors_assign (scope : Nat) (name : String) (value : Value) :
    Mirrors id (assign scope name value) (assign scope name value.unmarked) := by
  apply mirrors_modifyGet
  intro machine
  simp only [Machine.unmarked, Store.assign_unmarked, id]

theorem mirrors_fail (cause : Cause) : Mirrors Value.unmarked (fail cause) (fail cause) := by
  apply mirrors_ite _ (mirrors_throw .unwritable)
  exact mirrors_bind mirrors_newTag fun tag => mirrors_pure rfl

theorem mirrors_settle (result : Except Cause Value) :
    Mirrors Value.unmarked (settle result) (settle (result.map Value.unmarked)) := by
  cases result with
  | ok value => exact mirrors_pure rfl
  | error cause => exact mirrors_fail cause

theorem mirrors_lookUp (scope : Nat) (name : String) :
    Mirrors Value.unmarked (lookUp scope name) (lookUp scope name) := by
  apply mirrors_bind mirrors_get
  intro machine
  have alike : machine.unmarked.store.find? scope name =
      (machine.store.find? scope name).map Value.unmarked :=
    Store.find?_unmarked machine.store scope name
  rw [alike]
  cases machine.store.find? scope name with
  | some value => exact mirrors_pure rfl
  | none => exact mirrors_fail (.unbound name)

theorem mirrors_assignAll (scope : Nat) (parameters : List Identifier) (values : List Value) :
    Mirrors id (assignAll scope (parameters.zip values))
      (assignAll scope (parameters.zip (values.map Value.unmarked))) := by
  induction parameters generalizing values with
  | nil => exact mirrors_pure rfl
  | cons parameter rest ih =>
      cases values with
      | nil => exact mirrors_pure rfl
      | cons value values =>
          exact mirrors_bind (mirrors_assign scope parameter.name value) fun _ => ih values

/-- An error is handed on by both runs. -/
theorem mirrors_unless (value : Value) {run run' : Run Value}
    (later : Mirrors Value.unmarked run run') :
    Mirrors Value.unmarked (if value.isError then pure value else run)
      (if value.unmarked.isError then pure value.unmarked else run') := by
  rw [Value.isError_unmarked]
  exact mirrors_ite (mirrors_pure rfl) later

end

section

variable {sub : Evaluator Run}
  (level : ∀ node scope, Mirrors Value.unmarked (sub node scope) (sub node.unmarked scope))
include level

theorem mirrors_evalProgram (scope : Nat) (statements : List Node) (last : Value) :
    Mirrors Value.unmarked (evalProgram sub scope last statements)
      (evalProgram sub scope last.unmarked (Node.unmarkedAll statements)) := by
  induction statements generalizing last with
  | nil => exact mirrors_pure rfl
  | cons node rest ih =>
      rw [Node.unmarkedAll]
      apply mirrors_bind (level node scope)
      intro value
      cases value with
      | returned inner tag => exact mirrors_pure rfl
      | error cause tag => exact mirrors_pure rfl
      | integer | boolean | null | function => exact ih _

theorem mirrors_evalBlock (scope : Nat) (statements : List Node) (last : Value) :
    Mirrors Value.unmarked (evalBlock sub scope last statements)
      (evalBlock sub scope last.unmarked (Node.unmarkedAll statements)) := by
  induction statements generalizing last with
  | nil => exact mirrors_pure rfl
  | cons node rest ih =>
      rw [Node.unmarkedAll]
      apply mirrors_bind (level node scope)
      intro value
      rw [Value.isReturned_unmarked, Value.isError_unmarked]
      exact mirrors_ite (mirrors_pure rfl) (ih value)

def unmarkedGiven : Except Value (List Value) → Except Value (List Value)
  | .ok values => .ok (values.map Value.unmarked)
  | .error value => .error value.unmarked

theorem mirrors_evalArguments (scope : Nat) (arguments : List Node) :
    Mirrors unmarkedGiven (evalArguments sub scope arguments)
      (evalArguments sub scope (Node.unmarkedAll arguments)) := by
  induction arguments with
  | nil => exact mirrors_pure rfl
  | cons node rest ih =>
      rw [Node.unmarkedAll]
      apply mirrors_bind (level node scope)
      intro value
      rw [Value.isError_unmarked]
      apply mirrors_ite (mirrors_pure rfl)
      apply mirrors_bind ih
      intro others
      cases others <;> exact mirrors_pure rfl

theorem mirrors_evalConditional (scope : Nat) (condition consequence alternative : Node) :
    Mirrors Value.unmarked (evalConditional sub scope condition consequence alternative)
      (evalConditional sub scope condition.unmarked consequence.unmarked alternative.unmarked) := by
  apply mirrors_bind (level condition scope)
  intro value
  apply mirrors_unless value
  rw [Value.isTruthy_unmarked, Node.isMissing_unmarked]
  apply mirrors_ite (level consequence scope)
  exact mirrors_ite (mirrors_pure rfl) (level alternative scope)

theorem mirrors_apply (callee : Value) (arguments : List Value) :
    Mirrors Value.unmarked (apply sub callee arguments)
      (apply sub callee.unmarked (arguments.map Value.unmarked)) := by
  cases callee with
  | function parameters body outer tag =>
      rw [Value.unmarked, apply, apply, List.length_map]
      apply mirrors_ite _ (mirrors_fail _)
      apply mirrors_bind (mirrors_newScope outer)
      intro scope
      apply mirrors_bind (mirrors_assignAll scope parameters arguments)
      intro _
      apply mirrors_bind (level body scope)
      intro value
      exact mirrors_pure (Value.unwrap_unmarked value)
  | integer | boolean | null | returned | error => exact mirrors_fail _

theorem mirrors_evalCall (scope : Nat) (callee : Node) (arguments : List Node) :
    Mirrors Value.unmarked (evalCall sub scope callee arguments)
      (evalCall sub scope callee.unmarked (Node.unmarkedAll arguments)) := by
  apply mirrors_bind (level callee scope)
  intro target
  apply mirrors_unless target
  apply mirrors_bind (mirrors_evalArguments level scope arguments)
  intro values
  cases values with
  | error value => exact mirrors_pure rfl
  | ok values => exact mirrors_apply level target values

theorem mirrors_step (node : Node) (scope : Nat) :
    Mirrors Value.unmarked (step sub node scope) (step sub node.unmarked scope) := by
  cases node with
  | program statements => exact mirrors_evalProgram level scope statements .null
  | block token statements => exact mirrors_evalBlock level scope statements .null
  | statement token expression => exact level expression scope
  | name identifier => exact mirrors_lookUp scope identifier.name
  | number token value => exact mirrors_pure rfl
  | truth token value => exact mirrors_pure rfl
  | missing => exact mirrors_fail .missingNode
  | function token parameters body =>
      exact mirrors_bind mirrors_newTag fun tag => mirrors_pure rfl
  | returning token value =>
      apply mirrors_bind (level value scope)
      intro result
      apply mirrors_unless result
      exact mirrors_bind mirrors_newTag fun tag => mirrors_pure rfl
  | binding token target value =>
      apply mirrors_bind (level value scope)
      intro result
      apply mirrors_unless result
      exact mirrors_bind (mirrors_assign scope target.name result) fun _ => mirrors_pure rfl
  | unary token operator operand =>
      apply mirrors_bind (level operand scope)
      intro value
      apply mirrors_unless value
      rw [Value.unaryOperation_unmarked]
      exact mirrors_settle _
  | binary token left operator right =>
      apply mirrors_bind (level left scope)
      intro first
      apply mirrors_unless first
      apply mirrors_bind (level right scope)
      intro second
      apply mirrors_unless second
      rw [Value.binaryOperation_unmarked]
      exact mirrors_settle _
  | conditional token condition consequence alternative =>
      exact mirrors_evalConditional level scope condition consequence alternative
  | call token callee arguments => exact mirrors_evalCall level scope callee arguments

end

theorem mirrors_eval (limit : Option Int) (depth : Nat) (node : Node) (scope : Nat) :
    Mirrors Value.unmarked (eval limit depth node scope) (eval limit depth node.unmarked scope) := by
  induction depth generalizing node scope with
  | zero => exact mirrors_throw .tooDeep
  | succ depth ih =>
      apply mirrors_bind mirrors_visit
      intro count
      rw [id]
      cases exceeded? limit count with
      | some most => exact mirrors_fail (.stepLimit most)
      | none => exact mirrors_step ih node scope

namespace Outcome

def unmarked (outcome : Outcome) : Outcome :=
  ⟨outcome.result.map Value.unmarked, outcome.visited, outcome.store.unmarked⟩

/-- What can be seen of an outcome: the value or fault, the number of nodes visited, and the bindings
of a scope in order. -/
def shown (outcome : Outcome) (scope : Nat) :
    Except Fault (Value.Kind × Except Fault String) × Nat ×
      List (String × Value.Kind × Except Fault String) :=
  (outcome.result.map Value.seen, outcome.visited,
    (outcome.store.bindings scope).map fun binding => (binding.1, binding.2.seen))

theorem shown_unmarked (outcome : Outcome) (scope : Nat) :
    outcome.unmarked.shown scope = outcome.shown scope := by
  have bindings : (outcome.store.unmarked.bindings scope).map
        (fun binding => (binding.1, binding.2.seen)) =
      (outcome.store.bindings scope).map fun binding => (binding.1, binding.2.seen) := by
    rw [Store.bindings_unmarked, List.map_map]
    apply List.map_congr_left
    intro binding _
    simp only [Function.comp_apply, Value.seen_unmarked]
  have result : (outcome.result.map Value.unmarked).map Value.seen = outcome.result.map Value.seen := by
    cases outcome.result with
    | error fault => rfl
    | ok value => exact congrArg Except.ok (Value.seen_unmarked value)
  rw [shown, shown, unmarked, bindings, result]

end Outcome

theorem evaluateWithin_unmarked (depth : Nat) (limit : Option Int) (node : Node) (scope : Nat)
    (store : Store) :
    evaluateWithin depth limit node.unmarked scope store.unmarked =
      (evaluateWithin depth limit node scope store).unmarked := by
  have mirrored := mirrors_eval limit depth node scope ⟨store, 0⟩
  have start : (Machine.mk store 0).unmarked = ⟨store.unmarked, 0⟩ := rfl
  rw [start] at mirrored
  unfold evaluateWithin
  rw [mirrored]
  rcases (eval limit depth node scope).run.run ⟨store, 0⟩ with ⟨⟨⟨⟩ | ⟨⟩⟩ | ⟨value⟩, reached⟩ <;> rfl

/-- Trees that differ only in the tokens of expression statements come to the same. -/
theorem shown_evaluateWithin {left right : Node} (same : left.unmarked = right.unmarked)
    (depth : Nat) (limit : Option Int) (scope : Nat) (store : Store) (observed : Nat) :
    (evaluateWithin depth limit left scope store).shown observed =
      (evaluateWithin depth limit right scope store).shown observed :=
  calc
    _ = (evaluateWithin depth limit left.unmarked scope store.unmarked).shown observed := by
      rw [evaluateWithin_unmarked, Outcome.shown_unmarked]
    _ = (evaluateWithin depth limit right.unmarked scope store.unmarked).shown observed := by
      rw [same]
    _ = _ := by rw [evaluateWithin_unmarked, Outcome.shown_unmarked]

/-- What is read of the canonical text of a program comes to the same as the program, from every store:
the same kind of value with the same text, or the same fault, after as many visits, and the same
bindings in every scope. -/
theorem canonical_text_evaluated_alike (depth depth' : Nat) (source written : String)
    (writes : (Grammar.readText depth source).program.write = .ok written)
    (bounded : .tooDeep ∉ (Grammar.readText depth' written).mistakes) :
    let program := (Grammar.readText depth source).program
    let again := (Grammar.readText depth' written).program
    (Grammar.readText depth' written).mistakes = [] ∧
      ∀ (levels : Nat) (limit : Option Int) (scope : Nat) (store : Store) (observed : Nat),
        (evaluateWithin levels limit again scope store).shown observed =
          (evaluateWithin levels limit program scope store).shown observed := by
  intro program again
  obtain ⟨clean, same⟩ := Grammar.readText_written writes bounded
  exact ⟨clean, shown_evaluateWithin same⟩

/-- The source has other tokens than its canonical text, and binds a function that is written out. -/
theorem canonical_text_evaluated_alike_closure :
    let source := "let add = fn(a) \x7b fn(b) \x7b a + -b * 2 \x7d \x7d; add(1)(2) < 3"
    let written := "let add = fn(a) \x7b fn(b) \x7b (a + ((-b) * 2)) \x7d \x7d; (add(1)(2) < 3)"
    (Grammar.readText 9 source).program.write = .ok written ∧
      .tooDeep ∉ (Grammar.readText 9 written).mistakes ∧
      (evaluateWithin 30 none (Grammar.readText 9 written).program 0 (Store.empty.addScope none)).shown
          0 =
        (.ok (.boolean, .ok "true"), 22, [("add", .function,
          .ok "fn(a) \x7b fn(b) \x7b (a + ((-b) * 2)) \x7d \x7d")]) := by
  intro source written
  have writes : (Grammar.readText 9 source).program.write = .ok written := by decide +kernel
  have bounded : .tooDeep ∉ (Grammar.readText 9 written).mistakes := by decide +kernel
  refine ⟨writes, bounded, ?_⟩
  rw [(canonical_text_evaluated_alike 9 9 source written writes bounded).2]
  decide +kernel

end Evaluation

end MonkeyLang
