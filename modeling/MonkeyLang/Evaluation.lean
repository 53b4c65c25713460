import MonkeyLang.Store
import MonkeyLang.Value.Operation

/-!
Running a tree. Each rule takes `sub`, the evaluator one level further down; `eval` ties the rules
together over the levels that are left. An error value ends what it turns up in, and so does a
returned value in a list of statements, up to the function call or the program around it.
-/

namespace MonkeyLang.Evaluation

/-- What ends a run without a value: no level is left, or a message needs a number too long to
write. -/
inductive Stop where
  | tooDeep
  | unwritable
  deriving DecidableEq, Repr

structure Machine where
  store : Store
  /-- The number of nodes visited so far. -/
  visited : Nat
  deriving Repr

abbrev Run (α : Type) := ExceptT Stop (StateM Machine) α

/-- The evaluator of a level: a node, in a scope. -/
abbrev Evaluator (m : Type → Type) := Node → Nat → m Value

section

-- The rules ask for a machine and a way to stop. Whatever else a run carries is no part of them.
variable {m : Type → Type} [Monad m] [MonadStateOf Machine m] [MonadExceptOf Stop m]

def visit : m Nat :=
  modifyGet fun machine =>
    (machine.visited + 1, { machine with visited := machine.visited + 1 })

def newTag : m Nat :=
  modifyGet fun machine =>
    (machine.store.tags, { machine with store := machine.store.countTag })

def newScope (outer : Nat) : m Nat :=
  modifyGet fun machine =>
    (machine.store.scopes.size, { machine with store := machine.store.addScope (some outer) })

def assign (scope : Nat) (name : String) (value : Value) : m Unit :=
  modify fun machine => { machine with store := machine.store.assign scope name value }

def fail (cause : Cause) : m Value := do
  if cause.isWritable then
    let tag ← newTag
    pure (.error cause tag)
  else throw .unwritable

def settle : Except Cause Value → m Value
  | .ok value => pure value
  | .error cause => fail cause

def lookUp (scope : Nat) (name : String) : m Value := do
  let machine ← get
  match machine.store.find? scope name with
  | some value => pure value
  | none => fail (.unbound name)

def assignAll (scope : Nat) : List (Identifier × Value) → m Unit
  | [] => pure ()
  | (parameter, value) :: rest => do
    assign scope parameter.name value
    assignAll scope rest

variable (sub : Evaluator m)

/-- The value of a program is that of its last statement, or of the first that returns one. -/
def evalProgram (scope : Nat) (last : Value) : List Node → m Value
  | [] => pure last
  | node :: rest => do
    let value ← sub node scope
    match value with
    | .returned inner _ => pure inner
    | .error .. => pure value
    | _ => evalProgram scope value rest

/-- The value of a block, which stays wrapped if a statement returned it. -/
def evalBlock (scope : Nat) (last : Value) : List Node → m Value
  | [] => pure last
  | node :: rest => do
    let value ← sub node scope
    if value.isReturned || value.isError then pure value else evalBlock scope value rest

/-- The values of arguments from left to right, or the first error among them. -/
def evalArguments (scope : Nat) : List Node → m (Except Value (List Value))
  | [] => pure (.ok [])
  | node :: rest => do
    let value ← sub node scope
    if value.isError then pure (.error value)
    else
      let others ← evalArguments scope rest
      pure (others.map (value :: ·))

def evalConditional (scope : Nat) (condition consequence alternative : Node) : m Value := do
  let value ← sub condition scope
  if value.isError then pure value
  else if value.isTruthy then sub consequence scope
  else if alternative.isMissing then pure .null
  else sub alternative scope

def apply (callee : Value) (arguments : List Value) : m Value :=
  match callee with
  | .function parameters body outer _ =>
    if arguments.length = parameters.length then do
      let scope ← newScope outer
      assignAll scope (parameters.zip arguments)
      let value ← sub body scope
      pure value.unwrap
    else fail (.argumentCount parameters.length arguments.length)
  | _ => fail (.notAFunction callee.kind)

def evalCall (scope : Nat) (callee : Node) (arguments : List Node) : m Value := do
  let target ← sub callee scope
  if target.isError then pure target
  else
    match ← evalArguments sub scope arguments with
    | .error value => pure value
    | .ok values => apply sub target values

def step : Evaluator m := fun node scope =>
  match node with
  | .program statements => evalProgram sub scope .null statements
  | .statement _ expression => sub expression scope
  | .block _ statements => evalBlock sub scope .null statements
  | .returning _ value => do
    let result ← sub value scope
    if result.isError then pure result
    else
      let tag ← newTag
      pure (.returned result tag)
  | .binding _ target value => do
    let result ← sub value scope
    if result.isError then pure result
    else
      assign scope target.name result
      pure .null
  | .number _ value => pure (.integer value)
  | .truth _ value => pure (.boolean value)
  | .name identifier => lookUp scope identifier.name
  | .unary _ operator operand => do
    let value ← sub operand scope
    if value.isError then pure value else settle (value.unaryOperation operator)
  | .binary _ left operator right => do
    let first ← sub left scope
    if first.isError then pure first
    else
      let second ← sub right scope
      if second.isError then pure second else settle (first.binaryOperation operator second)
  | .conditional _ condition consequence alternative =>
    evalConditional sub scope condition consequence alternative
  | .function _ parameters body => do
    let tag ← newTag
    pure (.function parameters body scope tag)
  | .call _ callee arguments => evalCall sub scope callee arguments
  | .missing => fail .missingNode

end

/-- The limit, if there is one and a count of nodes is above it. -/
def exceeded? (limit : Option Int) (count : Nat) : Option Int :=
  limit.filter fun most => most < (count : Int)

/-- Evaluates a node through at most `depth` nested nodes. -/
def eval (limit : Option Int) : Nat → Evaluator Run
  | 0 => fun _ _ => throw .tooDeep
  | depth + 1 => fun node scope => do
    let count ← visit
    match exceeded? limit count with
    | some most => fail (.stepLimit most)
    | none => step (eval limit depth) node scope

/-- The number of nested nodes that are evaluated. -/
def depthLimit : Nat := 1000

structure Outcome where
  result : Except Fault Value
  visited : Nat
  store : Store

/-- A run from a fresh count of nodes. Running out of levels is an error of the program. -/
def evaluateWithin (depth : Nat) (limit : Option Int) (node : Node) (scope : Nat) (store : Store) :
    Outcome :=
  match (eval limit depth node scope).run.run ⟨store, 0⟩ with
  | (.ok value, machine) => ⟨.ok value, machine.visited, machine.store⟩
  | (.error .tooDeep, machine) =>
    ⟨.ok (.error .tooDeep machine.store.tags), machine.visited, machine.store.countTag⟩
  | (.error .unwritable, machine) => ⟨.error .unwritableInteger, machine.visited, machine.store⟩

def evaluate (limit : Option Int) (node : Node) (scope : Nat) (store : Store) : Outcome :=
  evaluateWithin depthLimit limit node scope store

end MonkeyLang.Evaluation
