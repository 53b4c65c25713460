import MonkeyLang.Interpretation
import MonkeyLang.Proofs.Evaluation.Direct

/-!
The language run by exits: a return statement leaves the function call or the program around it at
once, and no rule looks for a returned value. The evaluator hands returned values on by hand. On
direct trees that comes to the same, and no returned value is ever bound, used or left over
(`leaves_eval`). Elsewhere it does not (`returned_value_bound`).
-/

namespace MonkeyLang.Evaluation

/-- Runs that a return statement leaves with its value. -/
abbrev Leave := ExceptT Value Run

namespace Leaving

/-- The value that a run gives or is left with. -/
def caught (run : Leave Value) : Leave Value := tryCatchThe Value run pure

section

variable (sub : Evaluator Leave)

def evalStatements (scope : Nat) (last : Value) : List Node → Leave Value
  | [] => pure last
  | node :: rest => do
    let value ← sub node scope
    if value.isError then pure value else evalStatements scope value rest

def apply (callee : Value) (arguments : List Value) : Leave Value :=
  match callee with
  | .function parameters body outer _ =>
    if arguments.length = parameters.length then do
      let scope ← newScope outer
      assignAll scope (parameters.zip arguments)
      caught (sub body scope)
    else fail (.argumentCount parameters.length arguments.length)
  | _ => fail (.notAFunction callee.kind)

def evalCall (scope : Nat) (callee : Node) (arguments : List Node) : Leave Value := do
  let target ← sub callee scope
  if target.isError then pure target
  else
    match ← evalArguments sub scope arguments with
    | .error value => pure value
    | .ok values => apply sub target values

def step : Evaluator Leave := fun node scope =>
  match node with
  | .program statements => caught (evalStatements sub scope .null statements)
  | .block _ statements => evalStatements sub scope .null statements
  | .returning _ value => do
    let result ← sub value scope
    if result.isError then pure result
    else
      let _ ← newTag
      throwThe Value result
  | .call _ callee arguments => evalCall sub scope callee arguments
  | _ => Evaluation.step sub node scope

end

/-- Evaluates a node through at most `depth` nested nodes. -/
def eval (limit : Option Int) : Nat → Evaluator Leave
  | 0 => fun _ _ => throwThe Stop .tooDeep
  | depth + 1 => fun node scope => do
    let count ← visit
    match exceeded? limit count with
    | some most => fail (.stepLimit most)
    | none => step (eval limit depth) node scope

/-- What a run by hand and the same run by exits come to. `exit` says which values the first gives
where the second is left with one. -/
inductive Tally {α : Type} (post : α → Prop) (exit : α → Value → Prop) :
    Except Stop α × Machine → Except Stop (Except Value α) × Machine → Prop
  | value {value : α} {machine : Machine} (good : post value) (plain : machine.store.IsPlain) :
      Tally post exit (.ok value, machine) (.ok (.ok value), machine)
  | exit {value : α} {inner : Value} {machine : Machine} (left : exit value inner)
      (good : inner.IsPlain) (plain : machine.store.IsPlain) :
      Tally post exit (.ok value, machine) (.ok (.error inner), machine)
  | stopped {stop : Stop} {machine : Machine} (plain : machine.store.IsPlain) :
      Tally post exit (.error stop, machine) (.error stop, machine)

def Tallies {α : Type} (post : α → Prop) (exit : α → Value → Prop) (run : Run α)
    (run' : Leave α) : Prop :=
  ∀ machine : Machine, machine.store.IsPlain →
    Tally post exit (run.run.run machine) (run'.run.run.run machine)

/-- Both runs give the same, and no returned value. -/
abbrev Same {α : Type} (post : α → Prop) (run : Run α) (run' : Leave α) : Prop :=
  Tallies post (fun _ _ => False) run run'

/-- Both runs give the same plain value, or one gives wrapped what the other is left with, if that
may be. -/
abbrev Leaves (may : Bool) (run : Run Value) (run' : Leave Value) : Prop :=
  Tallies Value.IsPlain
    (fun value inner => may = true ∧ ∃ tag, value = .returned inner tag) run run'

section

variable {α β : Type} {post : α → Prop} {post' : β → Prop} {exit : α → Value → Prop}
  {exit' : β → Value → Prop} {may : Bool}

theorem run_bind (run : Leave α) (next : α → Leave β) (machine : Machine) :
    (run >>= next).run.run.run machine =
      match run.run.run.run machine with
      | (.ok (.ok value), after) => (next value).run.run.run after
      | (.ok (.error left), after) => (.ok (.error left), after)
      | (.error stop, after) => (.error stop, after) := by
  rw [ExceptT.run_bind, ExceptT.run_bind, StateT.run_bind]
  generalize StateT.run (ExceptT.run (ExceptT.run run)) machine = first
  rcases first with ⟨⟨stop⟩ | ⟨left⟩ | ⟨value⟩, after⟩ <;> rfl

theorem run_caught (run : Leave Value) (machine : Machine) :
    (caught run).run.run.run machine =
      match run.run.run.run machine with
      | (.ok (.ok value), after) => (.ok (.ok value), after)
      | (.ok (.error left), after) => (.ok (.ok left), after)
      | (.error stop, after) => (.error stop, after) := by
  change (tryCatch run pure : ExceptT Value Run Value).run.run.run machine = _
  rw [ExceptT.run_tryCatch, ExceptT.run_bind, StateT.run_bind]
  generalize StateT.run (ExceptT.run (ExceptT.run run)) machine = first
  rcases first with ⟨⟨stop⟩ | ⟨left⟩ | ⟨value⟩, after⟩ <;> rfl

theorem tallies_pure {value : α} (good : post value) :
    Tallies post exit (pure value) (pure value) :=
  fun _ plain => .value good plain

theorem tallies_bind {run : Run α} {run' : Leave α} {next : α → Run β} {next' : α → Leave β}
    (first : Same post run run')
    (second : ∀ value, post value → Tallies post' exit' (next value) (next' value)) :
    Tallies post' exit' (run >>= next) (run' >>= next') := by
  intro machine plain
  have tally := first machine plain
  rw [run_bind, ExceptT.run_bind, StateT.run_bind]
  generalize run.run.run machine = half at tally
  generalize run'.run.run.run machine = half' at tally
  cases tally with
  | value good plain' => exact second _ good _ plain'
  | exit left => exact left.elim
  | stopped plain' => exact .stopped plain'

theorem tallies_ite {condition : Prop} [Decidable condition] {yes no : Run α} {yes' no' : Leave α}
    (first : condition → Tallies post exit yes yes')
    (second : ¬condition → Tallies post exit no no') :
    Tallies post exit (if condition then yes else no) (if condition then yes' else no') := by
  split
  · exact first ‹_›
  · exact second ‹_›

/-- Both runs hand on a plain value alike, as they do with an error. -/
theorem tallies_unless {condition : Prop} [Decidable condition] {value : α} (good : post value)
    {run : Run α} {run' : Leave α} (later : Tallies post exit run run') :
    Tallies post exit (if condition then pure value else run)
      (if condition then pure value else run') :=
  tallies_ite (fun _ => tallies_pure good) fun _ => later

theorem same_get : Same (fun machine => machine.store.IsPlain) (get : Run Machine) get :=
  fun _ plain => .value plain plain

theorem same_newTag : Same (fun _ => True) (newTag : Run Nat) newTag :=
  fun _ plain => .value trivial plain

theorem same_newScope (outer : Nat) :
    Same (fun _ => True) (newScope outer : Run Nat) (newScope outer) :=
  fun _ plain => .value trivial (plain.addScope (some outer))

theorem same_assign (scope : Nat) (name : String) {value : Value} (good : value.IsPlain) :
    Same (fun _ => True) (assign scope name value : Run Unit) (assign scope name value) :=
  fun _ plain => .value trivial (plain.assign scope name good)

theorem same_stop (stop : Stop) : Tallies post exit (throw stop) (throwThe Stop stop) :=
  fun _ plain => .stopped plain

theorem same_fail (cause : Cause) : Same Value.IsPlain (fail cause : Run Value) (fail cause) := by
  apply tallies_ite
  · intro _
    exact tallies_bind same_newTag fun tag _ => tallies_pure trivial
  · intro _
    exact same_stop .unwritable

theorem same_settle {result : Except Cause Value}
    (good : ∀ value, result = .ok value → value.IsPlain) :
    Same Value.IsPlain (settle result : Run Value) (settle result) := by
  cases result with
  | ok value => exact tallies_pure (good value rfl)
  | error cause => exact same_fail cause

theorem same_lookUp (scope : Nat) (name : String) :
    Same Value.IsPlain (lookUp scope name : Run Value) (lookUp scope name) := by
  apply tallies_bind same_get
  intro machine plain
  cases found : machine.store.find? scope name with
  | some value => exact tallies_pure (plain.find? found)
  | none => exact same_fail (.unbound name)

theorem same_assignAll (scope : Nat) {pairs : List (Identifier × Value)}
    (good : ∀ pair ∈ pairs, pair.2.IsPlain) :
    Same (fun _ => True) (assignAll scope pairs : Run Unit) (assignAll scope pairs) := by
  induction pairs with
  | nil => exact tallies_pure trivial
  | cons pair rest ih =>
      obtain ⟨here, there⟩ := List.forall_mem_cons.mp good
      exact tallies_bind (same_assign scope pair.1.name here) fun _ _ => ih there

theorem tallies_mono {exit' : α → Value → Prop} {run : Run α} {run' : Leave α}
    (tallies : Tallies post exit run run')
    (bound : ∀ value inner, exit value inner → exit' value inner) : Tallies post exit' run run' := by
  intro machine plain
  have tally := tallies machine plain
  generalize run.run.run machine = half at tally ⊢
  generalize run'.run.run.run machine = half' at tally ⊢
  cases tally with
  | value good plain' => exact .value good plain'
  | exit left good plain' => exact .exit (bound _ _ left) good plain'
  | stopped plain' => exact .stopped plain'

theorem Same.leaves {run : Run Value} {run' : Leave Value} (same : Same Value.IsPlain run run') :
    Leaves may run run' :=
  tallies_mono same fun _ _ => False.elim

theorem Leaves.mono {more : Bool} {run : Run Value} {run' : Leave Value}
    (leaves : Leaves may run run') (bound : may = true → more = true) : Leaves more run run' :=
  tallies_mono leaves fun _ _ left => ⟨bound left.1, left.2⟩

theorem Leaves.same {run : Run Value} {run' : Leave Value} (leaves : Leaves may run run')
    (stays : may = false) : Same Value.IsPlain run run' :=
  tallies_mono leaves fun _ _ left => absurd left.1 (by simp [stays])

/-- What may be left is followed by nothing. -/
theorem leaves_bind {first : Bool} {run : Run Value} {run' : Leave Value}
    {next : Value → Run Value} {next' : Value → Leave Value} (leaves : Leaves first run run')
    (bound : first = true → may = true)
    (onward : ∀ value, value.IsPlain → Leaves may (next value) (next' value))
    (wrapped : ∀ inner tag, next (.returned inner tag) = pure (.returned inner tag)) :
    Leaves may (run >>= next) (run' >>= next') := by
  intro machine plain
  have tally := leaves machine plain
  rw [run_bind, ExceptT.run_bind, StateT.run_bind]
  generalize run.run.run machine = half at tally
  generalize run'.run.run.run machine = half' at tally
  cases tally with
  | value good plain' => exact onward _ good _ plain'
  | exit left good plain' =>
      obtain ⟨may, tag, rfl⟩ := left
      change Tally _ _ ((next (.returned _ tag)).run.run _) _
      rw [wrapped]
      exact .exit ⟨bound may, tag, rfl⟩ good plain'
  | stopped plain' => exact .stopped plain'

/-- A call or a program catches what its statements are left with. -/
theorem caught_bind {run : Run Value} {run' : Leave Value} {next : Value → Run Value}
    {next' : Value → Leave Value} (leaves : Leaves may run run')
    (onward : ∀ value, value.IsPlain → Same Value.IsPlain (next value) (caught (next' value)))
    (unwrapped : ∀ inner tag, next (.returned inner tag) = pure inner) :
    Same Value.IsPlain (run >>= next) (caught (run' >>= next')) := by
  intro machine plain
  have tally := leaves machine plain
  rw [run_caught, run_bind, ExceptT.run_bind, StateT.run_bind]
  generalize run.run.run machine = half at tally
  generalize run'.run.run.run machine = half' at tally
  cases tally with
  | value good plain' =>
      have later := onward _ good _ plain'
      rwa [run_caught] at later
  | exit left good plain' =>
      obtain ⟨-, tag, rfl⟩ := left
      change Tally _ _ ((next (.returned _ tag)).run.run _) _
      rw [unwrapped]
      exact .value good plain'
  | stopped plain' => exact .stopped plain'

end

section

variable {sub : Evaluator Run} {sub' : Evaluator Leave}
  (level : ∀ node scope, node.isDirect = true →
    Leaves node.returns (sub node scope) (sub' node scope))
include level

/-- Where a value is used, none is returned. -/
theorem same_used {node : Node} (used : (node.isDirect && !node.returns) = true) (scope : Nat) :
    Same Value.IsPlain (sub node scope) (sub' node scope) := by
  simp only [Bool.and_eq_true, Bool.not_eq_true'] at used
  exact (level node scope used.1).same used.2

theorem leaves_evalBlock (scope : Nat) {statements : List Node}
    (direct : Node.isDirectAll statements = true) {last : Value} (good : last.IsPlain) :
    Leaves (Node.returnsAny statements) (evalBlock sub scope last statements)
      (evalStatements sub' scope last statements) := by
  induction statements generalizing last with
  | nil => exact tallies_pure good
  | cons node rest ih =>
      simp only [Node.isDirectAll, Bool.and_eq_true] at direct
      apply leaves_bind (level node scope direct.1)
      · intro returns
        simp [Node.returnsAny, returns]
      · intro value good
        have stays : value.isReturned = false := by cases value <;> first | rfl | exact good.elim
        simp only [stays, Bool.false_or]
        apply tallies_unless good
        exact (ih direct.2 good).mono fun returns => by simp [Node.returnsAny, returns]
      · intro inner tag
        rfl

theorem same_evalProgram (scope : Nat) {statements : List Node}
    (direct : Node.isDirectAll statements = true) {last : Value} (good : last.IsPlain) :
    Same Value.IsPlain (evalProgram sub scope last statements)
      (caught (evalStatements sub' scope last statements)) := by
  induction statements generalizing last with
  | nil => exact tallies_pure good
  | cons node rest ih =>
      simp only [Node.isDirectAll, Bool.and_eq_true] at direct
      apply caught_bind (level node scope direct.1)
      · intro value good
        cases value with
        | returned inner tag => exact good.elim
        | error cause tag => exact tallies_pure good
        | integer | boolean | null | function => exact ih direct.2 good
      · intro inner tag
        rfl

/-- What the values of arguments come to: all are plain, or the first error among them is. -/
def Given : Except Value (List Value) → Prop
  | .ok values => ∀ value ∈ values, value.IsPlain
  | .error value => value.IsPlain

theorem same_evalArguments (scope : Nat) {arguments : List Node}
    (used : (Node.isDirectAll arguments && !Node.returnsAny arguments) = true) :
    Same Given (evalArguments sub scope arguments) (evalArguments sub' scope arguments) := by
  induction arguments with
  | nil => exact tallies_pure fun value member => by cases member
  | cons node rest ih =>
      have first : (node.isDirect && !node.returns) = true := by
        simp only [Node.isDirectAll, Node.returnsAny, Bool.and_eq_true, Bool.not_or] at used ⊢
        exact ⟨used.1.1, used.2.1⟩
      have others : (Node.isDirectAll rest && !Node.returnsAny rest) = true := by
        simp only [Node.isDirectAll, Node.returnsAny, Bool.and_eq_true, Bool.not_or] at used ⊢
        exact ⟨used.1.2, used.2.2⟩
      apply tallies_bind (same_used level first scope)
      intro value good
      apply tallies_unless (show Given (.error value) from good)
      apply tallies_bind (ih others)
      intro values given
      cases values with
      | error value => exact tallies_pure given
      | ok values => exact tallies_pure (List.forall_mem_cons.mpr ⟨good, given⟩)

theorem same_apply {callee : Value} (good : callee.IsPlain) {arguments : List Value}
    (given : ∀ value ∈ arguments, value.IsPlain) :
    Same Value.IsPlain (Evaluation.apply sub callee arguments) (apply sub' callee arguments) := by
  cases callee with
  | function parameters body outer tag =>
      apply tallies_ite
      · intro _
        apply tallies_bind (same_newScope outer)
        intro scope _
        apply tallies_bind (same_assignAll scope fun pair member => given _ (List.of_mem_zip member).2)
        intro _ _
        rw [← bind_pure (sub' body scope)]
        apply caught_bind (level body scope good)
        · intro value good
          cases value with
          | returned inner tag => exact good.elim
          | integer | boolean | null | error | function => exact tallies_pure good
        · intro inner tag
          rfl
      · intro _
        exact same_fail _
  | returned inner tag => exact good.elim
  | integer | boolean | null | error => exact same_fail _

theorem same_evalCall (scope : Nat) {callee : Node} {arguments : List Node}
    (direct : (callee.isDirect && !callee.returns) = true)
    (used : (Node.isDirectAll arguments && !Node.returnsAny arguments) = true) :
    Same Value.IsPlain (Evaluation.evalCall sub scope callee arguments)
      (evalCall sub' scope callee arguments) := by
  apply tallies_bind (same_used level direct scope)
  intro target good
  apply tallies_unless good
  apply tallies_bind (same_evalArguments level scope used)
  intro values given
  cases values with
  | error value => exact tallies_pure given
  | ok values => exact same_apply level good given

theorem leaves_evalConditional (scope : Nat) {condition consequence alternative : Node}
    (used : (condition.isDirect && !condition.returns) = true)
    (direct : consequence.isDirect = true) (direct' : alternative.isDirect = true) :
    Leaves (consequence.returns || alternative.returns)
      (evalConditional sub scope condition consequence alternative)
      (evalConditional sub' scope condition consequence alternative) := by
  apply tallies_bind (same_used level used scope)
  intro value good
  apply tallies_unless good
  apply tallies_ite
  · intro _
    exact (level consequence scope direct).mono fun returns => by simp [returns]
  · intro _
    apply tallies_ite
    · intro _
      exact tallies_pure trivial
    · intro _
      exact (level alternative scope direct').mono fun returns => by simp [returns]

theorem leaves_step (node : Node) (scope : Nat) (direct : node.isDirect = true) :
    Leaves node.returns (Evaluation.step sub node scope) (step sub' node scope) := by
  cases node with
  | program statements =>
      exact (same_evalProgram level scope direct (show Value.null.IsPlain from trivial)).leaves
  | statement token expression => exact level expression scope direct
  | block token statements => exact leaves_evalBlock level scope direct trivial
  | name identifier => exact (same_lookUp scope identifier.name).leaves
  | number token value => exact tallies_pure trivial
  | truth token value => exact tallies_pure trivial
  | missing => exact (same_fail .missingNode).leaves
  | function token parameters body =>
      exact tallies_bind same_newTag fun tag _ => tallies_pure direct
  | returning token value =>
      apply tallies_bind (same_used level direct scope)
      intro result good
      apply tallies_unless good
      apply tallies_bind same_newTag
      intro tag _ machine plain
      exact .exit ⟨rfl, tag, rfl⟩ good plain
  | binding token target value =>
      apply tallies_bind (same_used level direct scope)
      intro result good
      apply tallies_unless good
      exact tallies_bind (same_assign scope target.name good) fun _ _ => tallies_pure trivial
  | unary token operator operand =>
      apply tallies_bind (same_used level direct scope)
      intro value good
      apply tallies_unless good
      exact (same_settle fun _ => Value.unaryOperation_plain).leaves
  | binary token left operator right =>
      have both : ((left.isDirect && !left.returns) && (right.isDirect && !right.returns)) = true :=
        direct
      rw [Bool.and_eq_true] at both
      apply tallies_bind (same_used level both.1 scope)
      intro first good
      apply tallies_unless good
      apply tallies_bind (same_used level both.2 scope)
      intro second good
      apply tallies_unless good
      exact (same_settle fun _ => Value.binaryOperation_plain).leaves
  | conditional token condition consequence alternative =>
      have parts : ((condition.isDirect && !condition.returns) &&
          (consequence.isDirect && alternative.isDirect)) = true := direct
      rw [Bool.and_eq_true, Bool.and_eq_true consequence.isDirect] at parts
      apply (leaves_evalConditional level scope parts.1 parts.2.1 parts.2.2).mono
      intro returns
      rw [Node.returns, Bool.or_assoc, returns, Bool.or_true]
  | call token callee arguments =>
      have parts : ((callee.isDirect && !callee.returns) &&
          (Node.isDirectAll arguments && !Node.returnsAny arguments)) = true := direct
      rw [Bool.and_eq_true] at parts
      exact (same_evalCall level scope parts.1 parts.2).leaves

end

/-- On a direct node the evaluator does as the exits do, where it gives a returned value that they
would be left with. -/
theorem leaves_eval (limit : Option Int) (depth : Nat) (node : Node) (scope : Nat)
    (direct : node.isDirect = true) :
    Leaves node.returns (Evaluation.eval limit depth node scope) (eval limit depth node scope) := by
  induction depth generalizing node scope with
  | zero => exact same_stop .tooDeep
  | succ depth ih =>
      have visited : Same (fun _ => True) (visit : Run Nat) visit := fun _ plain => .value trivial plain
      apply tallies_bind visited
      intro count _
      cases exceeded? limit count with
      | some most => exact (same_fail (.stepLimit most)).leaves
      | none => exact leaves_step ih node scope direct

/-- A run from a fresh count of nodes, by exits. -/
def evaluateWithin (depth : Nat) (limit : Option Int) (node : Node) (scope : Nat) (store : Store) :
    Outcome :=
  match (eval limit depth node scope).run.run.run ⟨store, 0⟩ with
  | (.ok (.ok value), machine) | (.ok (.error value), machine) =>
    ⟨.ok value, machine.visited, machine.store⟩
  | (.error .tooDeep, machine) =>
    ⟨.ok (.error .tooDeep machine.store.tags), machine.visited, machine.store.countTag⟩
  | (.error .unwritable, machine) => ⟨.error .unwritableInteger, machine.visited, machine.store⟩

/-- A direct node that cannot be left, as no program can, comes to the same value, count and bindings
as by exits. It binds no returned value and gives none. -/
theorem direct_leaves (depth : Nat) (limit : Option Int) (node : Node) (scope : Nat) (store : Store)
    (direct : node.isDirect = true) (stays : node.returns = false) (plain : store.IsPlain) :
    Evaluation.evaluateWithin depth limit node scope store =
        evaluateWithin depth limit node scope store ∧
      (evaluateWithin depth limit node scope store).store.IsPlain ∧
      ∀ value, (evaluateWithin depth limit node scope store).result = .ok value →
        value.IsPlain := by
  have tally := (leaves_eval limit depth node scope direct).same stays ⟨store, 0⟩ plain
  unfold Evaluation.evaluateWithin evaluateWithin
  generalize (Evaluation.eval limit depth node scope).run.run _ = half at tally
  generalize (eval limit depth node scope).run.run.run _ = half' at tally
  cases tally with
  | value good plain' =>
      refine ⟨rfl, plain', ?_⟩
      rintro _ ⟨⟩
      exact good
  | exit left => exact left.elim
  | @stopped stop machine plain' =>
      cases stop with
      | tooDeep =>
          refine ⟨rfl, plain', ?_⟩
          rintro _ ⟨⟩
          trivial
      | unwritable =>
          refine ⟨rfl, plain', ?_⟩
          rintro _ ⟨⟩

/-- Two calls of a function that returns from a branch, or from its end. -/
theorem direct_leaves_branch :
    let program := (Grammar.readText 9
      "let f = fn(x) \x7b if (x) \x7b return 1; 5; \x7d; 2 \x7d; f(true) + f(false)").program
    let store := Store.empty.addScope none
    Evaluation.evaluateWithin 30 none program 0 store = evaluateWithin 30 none program 0 store ∧
      (evaluateWithin 30 none program 0 store).result.toOption.map Value.text = some "3" := by
  intro program store
  have direct : program.isDirect = true := by decide +kernel
  have stays : program.returns = false := by decide +kernel
  have plain : store.IsPlain := by decide +kernel
  constructor
  · exact (direct_leaves 30 none program 0 store direct stays plain).1
  · decide +kernel

end Leaving

/-- A value that is returned in a branch is bound as it is where the branch is the value of a binding,
and the program gives it as it is where the branch is the value of a return statement. -/
theorem returned_value_bound :
    (interpret none "let x = if (true) \x7b return 5; \x7d; 9" 0 (Store.empty.addScope none)).toOption.map
        (fun outcome => (outcome.result.toOption.map Value.text,
          (outcome.store.bindings 0).map fun binding => (binding.1, binding.2.kind))) =
      some (some "9", [("x", .returned)]) ∧
    (interpret none "return if (true) \x7b return 5; \x7d;" 0 (Store.empty.addScope none)).toOption.map
        (fun outcome => outcome.result.toOption.map Value.kind) =
      some (some .returned) := by
  decide +kernel

end MonkeyLang.Evaluation
