import MonkeyLang.Evaluation

/-!
The language run by exceptions: an error value is raised where it comes up, and no rule looks for
one. The evaluator hands error values on by hand; `raised_eval` says that this comes to the same.
-/

namespace MonkeyLang.Evaluation

/-- Runs that an error value leaves at once, as does what ends a run without a value. -/
abbrev Raise (m : Type → Type) := ExceptT Value (ExceptT Stop m)

namespace Raising

section

variable {m : Type → Type} [Monad m] [MonadStateOf Machine m]

/-- Gives a value, or raises it if it is an error. -/
def emit (value : Value) : Raise m Value :=
  if value.isError then throw value else pure value

def fail (cause : Cause) : Raise m Value := do
  if cause.isWritable then
    let tag ← newTag
    throw (.error cause tag)
  else throwThe Stop .unwritable

def settle : Except Cause Value → Raise m Value
  | .ok value => pure value
  | .error cause => fail cause

/-- A name may be bound to an error from before the run. Such an error comes up here. -/
def lookUp (scope : Nat) (name : String) : Raise m Value := do
  let machine ← getThe Machine
  match machine.store.find? scope name with
  | some value => emit value
  | none => fail (.unbound name)

variable (sub : Evaluator (Raise m))

def evalProgram (scope : Nat) (last : Value) : List Node → Raise m Value
  | [] => pure last
  | node :: rest => do
    let value ← sub node scope
    match value with
    | .returned inner _ => emit inner
    | _ => evalProgram scope value rest

def evalBlock (scope : Nat) (last : Value) : List Node → Raise m Value
  | [] => pure last
  | node :: rest => do
    let value ← sub node scope
    if value.isReturned then pure value else evalBlock scope value rest

def evalConditional (scope : Nat) (condition consequence alternative : Node) : Raise m Value := do
  let value ← sub condition scope
  if value.isTruthy then sub consequence scope
  else if alternative.isMissing then pure .null
  else sub alternative scope

def apply (callee : Value) (arguments : List Value) : Raise m Value :=
  match callee with
  | .function parameters body outer _ =>
    if arguments.length = parameters.length then do
      let scope ← newScope outer
      assignAll scope (parameters.zip arguments)
      let value ← sub body scope
      emit value.unwrap
    else fail (.argumentCount parameters.length arguments.length)
  | _ => fail (.notAFunction callee.kind)

def step : Evaluator (Raise m) := fun node scope =>
  match node with
  | .program statements => evalProgram sub scope .null statements
  | .statement _ expression => sub expression scope
  | .block _ statements => evalBlock sub scope .null statements
  | .returning _ value => do
    let result ← sub value scope
    let tag ← newTag
    pure (.returned result tag)
  | .binding _ target value => do
    let result ← sub value scope
    assign scope target.name result
    pure .null
  | .number _ value => pure (.integer value)
  | .truth _ value => pure (.boolean value)
  | .name identifier => lookUp scope identifier.name
  | .unary _ operator operand => do
    let value ← sub operand scope
    settle (value.unaryOperation operator)
  | .binary _ left operator right => do
    let first ← sub left scope
    let second ← sub right scope
    settle (first.binaryOperation operator second)
  | .conditional _ condition consequence alternative =>
    evalConditional sub scope condition consequence alternative
  | .function _ parameters body => do
    let tag ← newTag
    pure (.function parameters body scope tag)
  | .call _ callee arguments => do
    let target ← sub callee scope
    let values ← arguments.mapM fun argument => sub argument scope
    apply sub target values
  | .missing => fail .missingNode

/-- The rule of a node, unless its visit is one too many. -/
def visited (limit : Option Int) (count : Nat) : Evaluator (Raise m) := fun node scope =>
  match exceeded? limit count with
  | some most => fail (.stepLimit most)
  | none => step sub node scope

end

/-- Evaluates a node through at most `depth` nested nodes. -/
def eval (limit : Option Int) : Nat → Evaluator (Raise (StateM Machine))
  | 0 => fun _ _ => throwThe Stop .tooDeep
  | depth + 1 => fun node scope => do
    let count ← visit
    visited (eval limit depth) limit count node scope

section

variable {m : Type → Type} [Monad m] [MonadStateOf Machine m]

/-- A run by hand as one by exceptions: an error in the end is raised. -/
def raised (run : ExceptT Stop m Value) : Raise m Value := do
  let value ← ExceptT.lift run
  emit value

end

section

variable {m : Type → Type} [Monad m] {α β : Type}

theorem emit_error (value : Value) (error : value.isError = true) :
    (emit value : Raise m Value) = throw value := by
  simp [emit, error]

theorem emit_value (value : Value) (fine : value.isError = false) :
    (emit value : Raise m Value) = pure value := by
  simp [emit, fine]

variable [LawfulMonad m]

theorem raised_pure (value : Value) : raised (pure value : ExceptT Stop m Value) = emit value := by
  apply ExceptT.ext
  simp [raised]

theorem raised_value (value : Value) (fine : value.isError = false) :
    raised (pure value : ExceptT Stop m Value) = pure value :=
  calc
    raised (pure value) = emit value := raised_pure value
    _ = pure value := emit_value value fine

theorem run_raised (run : ExceptT Stop m Value) :
    (raised run).run = run >>= fun value =>
      pure (if value.isError then .error value else .ok value) := by
  rw [raised, ExceptT.run_bind_lift]
  apply bind_congr
  intro value
  cases error : value.isError with
  | true => simp [emit_error value error]
  | false => simp [emit_value value error]

theorem raised_bind (run : ExceptT Stop m α) (next : α → ExceptT Stop m Value) :
    raised (run >>= next) = ExceptT.lift run >>= fun value => raised (next value) := by
  apply ExceptT.ext
  simp [raised]

theorem raised_stop (stop : Stop) :
    raised (throw stop : ExceptT Stop m Value) = throwThe Stop stop := by
  apply ExceptT.ext
  change (raised (throw stop : ExceptT Stop m Value)).run = throw stop
  apply ExceptT.ext
  simp [raised]

theorem lift_bind (run : ExceptT Stop m α) (next : α → ExceptT Stop m β) :
    (ExceptT.lift (run >>= next) : Raise m β) =
      ExceptT.lift run >>= fun value => ExceptT.lift (next value) := by
  apply ExceptT.ext
  simp

/-- Where a rule gives an error back as it is, and goes on with any other value, it does as the rule
that raises the error and never sees it. -/
theorem raised_follow (run : ExceptT Stop m Value) (next : Value → ExceptT Stop m Value)
    (next' : Value → Raise m Value)
    (errors : ∀ value, value.isError = true → next value = pure value)
    (values : ∀ value, value.isError = false → raised (next value) = next' value) :
    raised (run >>= next) = raised run >>= next' := by
  rw [raised_bind, raised, bind_assoc]
  congr 1
  funext value
  cases error : value.isError with
  | true => rw [errors value error, raised_pure, emit_error value error, ExceptT.bind_throw]
  | false => rw [values value error, emit_value value error, pure_bind]

variable (sub : Evaluator (ExceptT Stop m))

theorem raised_evalProgram (scope : Nat) (statements : List Node) (last : Value)
    (fine : last.isError = false) :
    raised (Evaluation.evalProgram sub scope last statements) =
      evalProgram (fun node scope => raised (sub node scope)) scope last statements := by
  induction statements generalizing last with
  | nil => exact raised_value last fine
  | cons node rest ih =>
      apply raised_follow
      · intro value error
        cases value <;> first | rfl | cases error
      · intro value fine
        cases value with
        | returned inner tag => exact raised_pure inner
        | error cause tag => cases fine
        | integer | boolean | null | function => exact ih _ fine

theorem raised_evalBlock (scope : Nat) (statements : List Node) (last : Value)
    (fine : last.isError = false) :
    raised (Evaluation.evalBlock sub scope last statements) =
      evalBlock (fun node scope => raised (sub node scope)) scope last statements := by
  induction statements generalizing last with
  | nil => exact raised_value last fine
  | cons node rest ih =>
      apply raised_follow
      · intro value error
        simp [error]
      · intro value fine
        cases out : value.isReturned with
        | true => simp [fine, raised_value value fine]
        | false => simpa [fine] using ih value fine

/-- The first error among the arguments is given back by `next`, so raising it skips `next`. -/
theorem raised_evalArguments (scope : Nat) (nodes : List Node)
    (next : Except Value (List Value) → ExceptT Stop m Value)
    (errors : ∀ value, value.isError = true → next (.error value) = pure value) :
    raised (Evaluation.evalArguments sub scope nodes >>= next) =
      (nodes.mapM fun node => raised (sub node scope)) >>= fun values =>
        raised (next (.ok values)) := by
  induction nodes generalizing next with
  | nil => simp [Evaluation.evalArguments]
  | cons node rest ih =>
      simp only [Evaluation.evalArguments, List.mapM_cons, bind_assoc, pure_bind]
      apply raised_follow
      · intro value error
        simp [error, errors value error]
      · intro value fine
        simp only [fine, Bool.false_eq_true, if_false, bind_assoc, pure_bind]
        exact ih (fun others => next (others.map (value :: ·))) errors

theorem raised_evalConditional (scope : Nat) (condition consequence alternative : Node) :
    raised (Evaluation.evalConditional sub scope condition consequence alternative) =
      evalConditional (fun node scope => raised (sub node scope)) scope condition consequence
        alternative := by
  apply raised_follow
  · intro value error
    simp [error]
  · intro value fine
    simp only [fine, Bool.false_eq_true, if_false]
    split
    · rfl
    · split
      · exact raised_value _ rfl
      · rfl

variable [MonadStateOf Machine m]

theorem raised_fail (cause : Cause) :
    raised (Evaluation.fail cause : ExceptT Stop m Value) = fail cause := by
  unfold Evaluation.fail fail
  split
  · rw [raised_bind]
    congr 1
    funext tag
    rw [raised_pure, emit_error _ rfl]
  · exact raised_stop .unwritable

theorem raised_settle (result : Except Cause Value)
    (fine : ∀ value, result = .ok value → value.isError = false) :
    raised (Evaluation.settle result : ExceptT Stop m Value) = settle result := by
  cases result with
  | error cause => exact raised_fail cause
  | ok value => exact raised_value value (fine value rfl)

theorem raised_lookUp (scope : Nat) (name : String) :
    raised (Evaluation.lookUp scope name : ExceptT Stop m Value) = lookUp scope name := by
  unfold Evaluation.lookUp lookUp
  rw [raised_bind]
  congr 1
  funext machine
  cases machine.store.find? scope name with
  | some value => exact raised_pure value
  | none => exact raised_fail (.unbound name)

theorem lift_assignAll (scope : Nat) (pairs : List (Identifier × Value)) :
    (ExceptT.lift (assignAll scope pairs) : Raise m Unit) = assignAll scope pairs := by
  induction pairs with
  | nil =>
      apply ExceptT.ext
      simp [assignAll]
  | cons pair rest ih =>
      rw [assignAll, lift_bind, ih]
      rfl

theorem raised_apply (callee : Value) (arguments : List Value) :
    raised (Evaluation.apply sub callee arguments) =
      apply (fun node scope => raised (sub node scope)) callee arguments := by
  cases callee with
  | function parameters body outer tag =>
      by_cases arity : arguments.length = parameters.length
      · simp only [Evaluation.apply, apply, arity, if_true]
        rw [raised_bind]
        congr 1
        funext scope
        rw [raised_bind, lift_assignAll]
        congr 1
        funext _
        apply raised_follow
        · intro value error
          cases value <;> first | rfl | cases error
        · intro value fine
          exact raised_pure _
      · simp only [Evaluation.apply, apply, arity, if_false]
        exact raised_fail _
  | integer | boolean | null | returned | error => exact raised_fail _

theorem raised_step (node : Node) (scope : Nat) :
    raised (Evaluation.step sub node scope) =
      step (fun node scope => raised (sub node scope)) node scope := by
  cases node with
  | program statements => exact raised_evalProgram sub scope statements .null rfl
  | statement token expression => rfl
  | block token statements => exact raised_evalBlock sub scope statements .null rfl
  | name identifier => exact raised_lookUp scope identifier.name
  | number token value => exact raised_value _ rfl
  | truth token value => exact raised_value _ rfl
  | missing => exact raised_fail _
  | conditional token condition consequence alternative =>
      exact raised_evalConditional sub scope condition consequence alternative
  | returning token value =>
      apply raised_follow
      · intro result error
        simp [error]
      · intro result fine
        simp only [fine, Bool.false_eq_true, if_false]
        rw [raised_bind]
        congr 1
        funext tag
        exact raised_value _ rfl
  | binding token target value =>
      apply raised_follow
      · intro result error
        simp [error]
      · intro result fine
        simp only [fine, Bool.false_eq_true, if_false]
        rw [raised_bind]
        congr 1
        funext _
        exact raised_value _ rfl
  | function token parameters body =>
      apply (raised_bind _ _).trans
      congr 1
      funext tag
      exact raised_value _ rfl
  | unary token operator operand =>
      apply raised_follow
      · intro value error
        simp [error]
      · intro value fine
        simp only [fine, Bool.false_eq_true, if_false]
        exact raised_settle _ fun result => Value.unaryOperation_not_error
  | binary token left operator right =>
      apply raised_follow
      · intro first error
        simp [error]
      · intro first fine
        simp only [fine, Bool.false_eq_true, if_false]
        apply raised_follow
        · intro second error
          simp [error]
        · intro second fine
          simp only [fine, Bool.false_eq_true, if_false]
          exact raised_settle _ fun result => Value.binaryOperation_not_error
  | call token callee arguments =>
      apply raised_follow
      · intro target error
        simp [error]
      · intro target fine
        simp only [fine, Bool.false_eq_true, if_false]
        rw [raised_evalArguments]
        · exact congrArg _ (funext fun values => raised_apply sub target values)
        · intro value error
          rfl

theorem raised_visited (limit : Option Int) (count : Nat) (node : Node) (scope : Nat) :
    raised (match exceeded? limit count with
      | some most => Evaluation.fail (.stepLimit most)
      | none => Evaluation.step sub node scope) =
      visited (fun node scope => raised (sub node scope)) limit count node scope := by
  unfold visited
  cases exceeded? limit count with
  | some most => exact raised_fail (.stepLimit most)
  | none => exact raised_step sub node scope

end

theorem raised_eval (limit : Option Int) (depth : Nat) (node : Node) (scope : Nat) :
    raised (Evaluation.eval limit depth node scope) = eval limit depth node scope := by
  induction depth generalizing node scope with
  | zero => exact raised_stop .tooDeep
  | succ depth ih =>
      have below : (fun node scope => raised (Evaluation.eval limit depth node scope)) =
          eval limit depth := funext fun node => funext fun scope => ih node scope
      apply (raised_bind _ _).trans
      apply bind_congr
      intro count
      rw [← below]
      exact raised_visited (Evaluation.eval limit depth) limit count node scope

end Raising

end MonkeyLang.Evaluation
