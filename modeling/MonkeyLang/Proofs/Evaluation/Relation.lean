import MonkeyLang.Proofs.Evaluation.Raising

/-!
Two runs side by side. A relation between runs that sequencing and the few primitive actions keep is
kept by every rule of the language (`step_related`). It is proved once, for the rules that raise
errors; what holds along a run and what two runs have in common are both read off such relations.
-/

namespace MonkeyLang.Evaluation.Raising

/-- An action that sees and changes nothing but the store. -/
def onStore {m : Type → Type} [MonadStateOf Machine m] {α : Type} (change : Store → α × Store) :
    m α :=
  modifyGet fun machine =>
    ((change machine.store).1, { machine with store := (change machine.store).2 })

section

variable {m n : Type → Type} [Monad m] [MonadStateOf Machine m] [Monad n] [MonadStateOf Machine n]

structure Congruence (related : (α : Type) → Raise m α → Raise n α → Prop) : Prop where
  pure {α : Type} (value : α) : related α (pure value) (pure value)
  bind {α β : Type} {run : Raise m α} {run' : Raise n α} {next : α → Raise m β}
    {next' : α → Raise n β} (first : related α run run')
    (second : ∀ value, related β (next value) (next' value)) :
    related β (run >>= next) (run' >>= next')
  onStore {α : Type} (change : Store → α × Store) : related α (onStore change) (onStore change)
  read : related Machine (getThe Machine) (getThe Machine)
  raise {α : Type} (value : Value) (error : value.isError = true) :
    related α (throw value) (throw value)
  stop {α : Type} (stop : Stop) : related α (throwThe Stop stop) (throwThe Stop stop)

variable {related : (α : Type) → Raise m α → Raise n α → Prop} (closed : Congruence related)

include closed

theorem newTag_related : related Nat newTag newTag :=
  closed.onStore fun store => (store.tags, store.countTag)

theorem newScope_related (outer : Nat) : related Nat (newScope outer) (newScope outer) :=
  closed.onStore fun store => (store.scopes.size, store.addScope (some outer))

theorem assign_related (scope : Nat) (name : String) (value : Value) :
    related Unit (assign scope name value) (assign scope name value) :=
  closed.onStore fun store => ((), store.assign scope name value)

theorem emit_related (value : Value) : related Value (emit value) (emit value) := by
  unfold emit
  split
  · exact closed.raise value ‹_›
  · exact closed.pure value

theorem fail_related (cause : Cause) : related Value (fail cause) (fail cause) := by
  unfold fail
  split
  · exact closed.bind (newTag_related closed) fun tag => closed.raise _ rfl
  · exact closed.stop .unwritable

theorem settle_related (result : Except Cause Value) :
    related Value (settle result) (settle result) := by
  cases result with
  | ok value => exact closed.pure value
  | error cause => exact fail_related closed cause

theorem lookUp_related (scope : Nat) (name : String) :
    related Value (lookUp scope name) (lookUp scope name) := by
  apply closed.bind closed.read
  intro machine
  cases machine.store.find? scope name with
  | some value => exact emit_related closed value
  | none => exact fail_related closed (.unbound name)

theorem assignAll_related (scope : Nat) (pairs : List (Identifier × Value)) :
    related Unit (assignAll scope pairs) (assignAll scope pairs) := by
  induction pairs with
  | nil => exact closed.pure ()
  | cons pair rest ih =>
      exact closed.bind (assign_related closed scope pair.1.name pair.2) fun _ => ih

variable {sub : Evaluator (Raise m)} {sub' : Evaluator (Raise n)}
  (level : ∀ node scope, related Value (sub node scope) (sub' node scope))

include level

theorem evalProgram_related (scope : Nat) (statements : List Node) (last : Value) :
    related Value (evalProgram sub scope last statements)
      (evalProgram sub' scope last statements) := by
  induction statements generalizing last with
  | nil => exact closed.pure last
  | cons node rest ih =>
      apply closed.bind (level node scope)
      intro value
      cases value with
      | returned inner tag => exact emit_related closed inner
      | integer | boolean | null | error | function => exact ih _

theorem evalBlock_related (scope : Nat) (statements : List Node) (last : Value) :
    related Value (evalBlock sub scope last statements) (evalBlock sub' scope last statements) := by
  induction statements generalizing last with
  | nil => exact closed.pure last
  | cons node rest ih =>
      apply closed.bind (level node scope)
      intro value
      split
      · exact closed.pure value
      · exact ih value

theorem evalConditional_related (scope : Nat) (condition consequence alternative : Node) :
    related Value (evalConditional sub scope condition consequence alternative)
      (evalConditional sub' scope condition consequence alternative) := by
  apply closed.bind (level condition scope)
  intro value
  split
  · exact level consequence scope
  · split
    · exact closed.pure Value.null
    · exact level alternative scope

variable [LawfulMonad m] [LawfulMonad n]

theorem arguments_related (scope : Nat) (nodes : List Node) :
    related (List Value) (nodes.mapM fun node => sub node scope)
      (nodes.mapM fun node => sub' node scope) := by
  induction nodes with
  | nil =>
      simp only [List.mapM_nil]
      exact closed.pure []
  | cons node rest ih =>
      simp only [List.mapM_cons]
      exact closed.bind (level node scope) fun value => closed.bind ih fun values => closed.pure _

omit [LawfulMonad m] [LawfulMonad n] in
theorem apply_related (callee : Value) (arguments : List Value) :
    related Value (apply sub callee arguments) (apply sub' callee arguments) := by
  cases callee with
  | function parameters body outer tag =>
      by_cases arity : arguments.length = parameters.length
      · simp only [apply, arity, if_true]
        apply closed.bind (newScope_related closed outer)
        intro scope
        apply closed.bind (assignAll_related closed scope _)
        intro _
        exact closed.bind (level body scope) fun value => emit_related closed value.unwrap
      · simp only [apply, arity, if_false]
        exact fail_related closed _
  | integer | boolean | null | returned | error => exact fail_related closed _

theorem step_related (node : Node) (scope : Nat) :
    related Value (step sub node scope) (step sub' node scope) := by
  cases node with
  | program statements => exact evalProgram_related closed level scope statements .null
  | statement token expression => exact level expression scope
  | block token statements => exact evalBlock_related closed level scope statements .null
  | name identifier => exact lookUp_related closed scope identifier.name
  | number token value => exact closed.pure _
  | truth token value => exact closed.pure _
  | missing => exact fail_related closed .missingNode
  | conditional token condition consequence alternative =>
      exact evalConditional_related closed level scope condition consequence alternative
  | returning token value =>
      exact closed.bind (level value scope) fun result =>
        closed.bind (newTag_related closed) fun tag => closed.pure _
  | binding token target value =>
      exact closed.bind (level value scope) fun result =>
        closed.bind (assign_related closed scope target.name result) fun _ => closed.pure Value.null
  | function token parameters body =>
      exact closed.bind (newTag_related closed) fun tag => closed.pure _
  | unary token operator operand =>
      exact closed.bind (level operand scope) fun value => settle_related closed _
  | binary token left operator right =>
      exact closed.bind (level left scope) fun first =>
        closed.bind (level right scope) fun second => settle_related closed _
  | call token callee arguments =>
      exact closed.bind (level callee scope) fun target =>
        closed.bind (arguments_related closed level scope arguments) fun values =>
          apply_related closed level target values

theorem visited_related (limit : Option Int) (count : Nat) (node : Node) (scope : Nat) :
    related Value (visited sub limit count node scope) (visited sub' limit count node scope) := by
  unfold visited
  cases exceeded? limit count with
  | some most => exact fail_related closed (.stepLimit most)
  | none => exact step_related closed level node scope

end

end MonkeyLang.Evaluation.Raising
