import MonkeyLang.Proofs.Evaluation.Built
import MonkeyLang.Proofs.Evaluation.Trace
import MonkeyLang.Proofs.Grammar.Formed

/-!
Runs of trees that can be run. From a store that holds only the functions of such trees every node
that is entered can be run, so that no rule meets a part that is missing or an operator that it does
not know. What is kept of any text is such a tree (`recovered_runs_regularly`).
-/

namespace MonkeyLang

/-- The causes that only a missing part or an unknown operator has. -/
def Cause.isStray : Cause → Bool
  | missingNode => true
  | unknownUnary operator _ => operator ∉ Node.unaryOperators
  | unknownBinary .integer _ .integer => true
  | _ => false

namespace Value

/-- A value that comes of trees that can be run. -/
def Regular : Value → Prop
  | returned inner _ => inner.Regular
  | error cause _ => cause.isStray = false
  | function _ body .. => body.Formed
  | integer _ | boolean _ | null => True

theorem Regular.unwrap {value : Value} (regular : value.Regular) : value.unwrap.Regular := by
  cases value with
  | returned inner tag => exact regular
  | integer | boolean | null | error | function => exact regular

theorem stray_unaryOperation {operator : String} (known : operator ∈ Node.unaryOperators)
    {operand : Value} {cause : Cause} (failed : operand.unaryOperation operator = .error cause) :
    cause.isStray = false := by
  unfold unaryOperation at failed
  split at failed
  · cases failed
  · split at failed
    · cases failed
    · cases failed
      simp [Cause.isStray, known]
  · cases failed
    simp [Cause.isStray, known]

theorem stray_integerOperation {operator : String} (known : operator ∈ Node.binaryOperators)
    {left right : Int} {cause : Cause}
    (failed : integerOperation operator left right = .error cause) : cause.isStray = false := by
  unfold integerOperation at failed
  split at failed
  case h_4 =>
      split at failed
      · cases failed
        rfl
      · cases failed
  case h_9 => simp_all [Node.binaryOperators]
  all_goals cases failed

theorem stray_mixedOperation {operator : String} {left right : Value} {cause : Cause}
    (apart : ¬(left.kind = .integer ∧ right.kind = .integer))
    (failed : mixedOperation operator left right = .error cause) : cause.isStray = false := by
  unfold mixedOperation at failed
  split at failed
  · cases failed
  · cases failed
  · split at failed
    · rename_i same
      cases failed
      have mixed : left.kind ≠ .integer := fun first => apart ⟨first, same ▸ first⟩
      rw [← same]
      cases first : left.kind with
      | integer => exact absurd first mixed
      | boolean | null | returned | error | function => rfl
    · cases failed
      rfl

theorem stray_binaryOperation {operator : String} (known : operator ∈ Node.binaryOperators)
    {left right : Value} {cause : Cause}
    (failed : left.binaryOperation operator right = .error cause) : cause.isStray = false := by
  unfold binaryOperation at failed
  split at failed
  · exact stray_integerOperation known failed
  · rename_i apart
    apply stray_mixedOperation _ failed
    rintro ⟨first, second⟩
    cases left <;> cases first
    cases right <;> cases second
    exact apart _ _ rfl rfl

theorem regular_unaryOperation {operator : String} {operand result : Value}
    (computed : operand.unaryOperation operator = .ok result) : result.Regular := by
  unfold unaryOperation at computed
  grind [Regular]

theorem regular_binaryOperation {operator : String} {left right result : Value}
    (computed : left.binaryOperation operator right = .ok result) : result.Regular := by
  unfold binaryOperation at computed
  split at computed
  · unfold integerOperation at computed
    grind [Regular]
  · unfold mixedOperation at computed
    grind [Regular]

end Value

namespace Store

def Regular (store : Store) : Prop := ∀ value, store.Binds value → value.Regular

namespace Regular

variable {store : Store}

theorem fresh : (empty.addScope none).Regular := by
  rintro value ⟨index, scope, present, binding, member, rfl⟩
  rcases getElem?_addScope present with ⟨-, rfl⟩ | old
  · cases member
  · cases old

theorem addScope (regular : store.Regular) (outer : Option Nat) :
    (store.addScope outer).Regular := by
  rintro value ⟨index, scope, present, binding, member, rfl⟩
  rcases getElem?_addScope present with ⟨-, rfl⟩ | old
  · cases member
  · exact regular _ ⟨index, scope, old, binding, member, rfl⟩

theorem assign (regular : store.Regular) (scope : Nat) (name : String) {value : Value}
    (fine : value.Regular) : (store.assign scope name value).Regular := by
  rintro _ ⟨index, scope, present, binding, member, rfl⟩
  obtain ⟨before, old, -, origin⟩ := getElem?_assign present
  rcases origin binding member with rfl | earlier
  · exact fine
  · exact regular _ ⟨index, before, old, binding, earlier, rfl⟩

end Regular

end Store

namespace Evaluation

def Event.Regular : Event → Prop
  | entered node _ machine => node.Formed ∧ machine.store.Regular
  | left value machine => value.Regular ∧ machine.store.Regular

variable {α β : Type}

/-- What a recorded run comes to where everything in it is regular. -/
structure Regular (good : α → Prop) (ended : (Except Stop α × Machine) × List Event) : Prop where
  store : ended.1.2.store.Regular
  events : ∀ event ∈ ended.2, event.Regular
  value : ∀ value, ended.1.1 = .ok value → good value

/-- A run that keeps everything regular, and gives something good if it gives anything. -/
def Regularly (good : α → Prop) (run : ExceptT Stop Recording α) : Prop :=
  ∀ machine past, machine.store.Regular → (∀ event ∈ past, event.Regular) →
    Regular good ((run.run.run machine).run past)

section

variable {good : α → Prop} {good' : β → Prop}

theorem regularly_pure {value : α} (fine : good value) : Regularly good (pure value) := by
  intro machine past store events
  refine ⟨store, events, ?_⟩
  rintro _ ⟨⟩
  exact fine

theorem regularly_throw (stop : Stop) : Regularly good (throw stop) :=
  fun _ _ store events => ⟨store, events, nofun⟩

theorem regularly_bind {run : ExceptT Stop Recording α} {next : α → ExceptT Stop Recording β}
    (first : Regularly good run) (second : ∀ value, good value → Regularly good' (next value)) :
    Regularly good' (run >>= next) := by
  intro machine past store events
  have half := first machine past store events
  rw [ExceptT.run_bind, StateT.run_bind, StateT.run_bind]
  generalize StateT.run (StateT.run (ExceptT.run run) machine) past = ended at half
  rcases ended with ⟨⟨⟨stop⟩ | ⟨value⟩, reached⟩, seen⟩
  · exact ⟨half.store, half.events, nofun⟩
  · exact second value (half.value value rfl) reached seen half.store half.events

theorem regularly_ite {condition : Prop} [Decidable condition] {yes no : ExceptT Stop Recording α}
    (first : condition → Regularly good yes) (second : ¬condition → Regularly good no) :
    Regularly good (if condition then yes else no) := by
  split
  · exact first ‹_›
  · exact second ‹_›

theorem regularly_modifyGet {change : Machine → α × Machine}
    (kept : ∀ machine : Machine, machine.store.Regular →
      (change machine).2.store.Regular ∧ good (change machine).1) :
    Regularly good (modifyGet change) := by
  intro machine past store events
  obtain ⟨later, fine⟩ := kept machine store
  refine ⟨later, events, ?_⟩
  rintro _ ⟨⟩
  exact fine

theorem regularly_get : Regularly (fun machine : Machine => machine.store.Regular) get := by
  intro machine past store events
  refine ⟨store, events, ?_⟩
  rintro _ ⟨⟩
  exact store

theorem regularly_visit : Regularly (fun _ => True) visit :=
  regularly_modifyGet fun _ store => ⟨store, trivial⟩

theorem regularly_newTag : Regularly (fun _ => True) newTag :=
  regularly_modifyGet fun _ store => ⟨store, trivial⟩

theorem regularly_newScope (outer : Nat) : Regularly (fun _ => True) (newScope outer) :=
  regularly_modifyGet fun _ store => ⟨store.addScope (some outer), trivial⟩

theorem regularly_assign (scope : Nat) (name : String) {value : Value} (fine : value.Regular) :
    Regularly (fun _ => True) (assign scope name value) :=
  regularly_modifyGet fun _ store => ⟨store.assign scope name fine, trivial⟩

theorem regularly_fail {cause : Cause} (known : cause.isStray = false) :
    Regularly Value.Regular (fail cause) := by
  apply regularly_ite
  · intro _
    exact regularly_bind regularly_newTag fun tag _ => regularly_pure known
  · intro _
    exact regularly_throw .unwritable

theorem regularly_settle {result : Except Cause Value}
    (values : ∀ value, result = .ok value → value.Regular)
    (causes : ∀ cause, result = .error cause → cause.isStray = false) :
    Regularly Value.Regular (settle result) := by
  cases result with
  | ok value => exact regularly_pure (values value rfl)
  | error cause => exact regularly_fail (causes cause rfl)

theorem regularly_lookUp (scope : Nat) (name : String) :
    Regularly Value.Regular (lookUp scope name) := by
  apply regularly_bind regularly_get
  intro machine store
  cases found : machine.store.find? scope name with
  | some value => exact regularly_pure (store value (Store.binds_of_find? found))
  | none => exact regularly_fail rfl

theorem regularly_assignAll (scope : Nat) {pairs : List (Identifier × Value)}
    (fine : ∀ pair ∈ pairs, pair.2.Regular) : Regularly (fun _ => True) (assignAll scope pairs) := by
  induction pairs with
  | nil => exact regularly_pure trivial
  | cons pair rest ih =>
      obtain ⟨here, there⟩ := List.forall_mem_cons.mp fine
      apply regularly_bind (regularly_assign scope pair.1.name here)
      intro _ _
      exact ih there

/-- An error is handed on as it is. -/
theorem regularly_unless {value : Value} {run : ExceptT Stop Recording Value}
    (fine : value.Regular) (later : Regularly Value.Regular run) :
    Regularly Value.Regular (if value.isError then pure value else run) :=
  regularly_ite (fun _ => regularly_pure fine) fun _ => later

end

section

variable {sub : Evaluator (ExceptT Stop Recording)}
  (level : ∀ {node : Node} (scope : Nat), node.Formed → Regularly Value.Regular (sub node scope))
include level

theorem regularly_evalProgram (scope : Nat) {statements : List Node}
    (formed : ∀ node ∈ statements, node.Formed) {last : Value} (fine : last.Regular) :
    Regularly Value.Regular (evalProgram sub scope last statements) := by
  induction statements generalizing last with
  | nil => exact regularly_pure fine
  | cons node rest ih =>
      obtain ⟨here, there⟩ := List.forall_mem_cons.mp formed
      apply regularly_bind (level scope here)
      intro value fine
      cases value with
      | returned inner tag => exact regularly_pure fine
      | error cause tag => exact regularly_pure fine
      | integer | boolean | null | function => exact ih there fine

theorem regularly_evalBlock (scope : Nat) {statements : List Node}
    (formed : ∀ node ∈ statements, node.Formed) {last : Value} (fine : last.Regular) :
    Regularly Value.Regular (evalBlock sub scope last statements) := by
  induction statements generalizing last with
  | nil => exact regularly_pure fine
  | cons node rest ih =>
      obtain ⟨here, there⟩ := List.forall_mem_cons.mp formed
      apply regularly_bind (level scope here)
      intro value fine
      exact regularly_ite (fun _ => regularly_pure fine) fun _ => ih there fine

/-- The values of arguments, or the first error among them. -/
def RegularArguments : Except Value (List Value) → Prop
  | .ok values => ∀ value ∈ values, value.Regular
  | .error value => value.Regular

theorem regularly_evalArguments (scope : Nat) {arguments : List Node}
    (formed : ∀ node ∈ arguments, node.Formed) :
    Regularly RegularArguments (evalArguments sub scope arguments) := by
  induction arguments with
  | nil => exact @regularly_pure _ RegularArguments (.ok []) nofun
  | cons node rest ih =>
      obtain ⟨here, there⟩ := List.forall_mem_cons.mp formed
      apply regularly_bind (level scope here)
      intro value fine
      apply regularly_ite
      · intro _
        exact @regularly_pure _ RegularArguments (.error value) fine
      · intro _
        apply regularly_bind (ih there)
        intro others given
        cases others with
        | error other => exact @regularly_pure _ RegularArguments (.error other) given
        | ok others =>
            have all : RegularArguments (.ok (value :: others)) := List.forall_mem_cons.mpr ⟨fine, given⟩
            exact regularly_pure all

theorem regularly_apply {callee : Value} (fine : callee.Regular) {arguments : List Value}
    (given : ∀ argument ∈ arguments, argument.Regular) :
    Regularly Value.Regular (apply sub callee arguments) := by
  cases callee with
  | function parameters body outer tag =>
      apply regularly_ite
      · intro _
        apply regularly_bind (regularly_newScope outer)
        intro scope _
        have bound : Regularly (fun _ => True)
            (assignAll (m := ExceptT Stop Recording) scope (parameters.zip arguments)) :=
          regularly_assignAll scope fun pair member => given pair.2 (List.of_mem_zip member).2
        apply regularly_bind bound
        intro _ _
        apply regularly_bind (level scope fine)
        intro value fine
        exact regularly_pure fine.unwrap
      · intro _
        exact regularly_fail rfl
  | integer | boolean | null | returned | error => exact regularly_fail rfl

theorem regularly_evalCall (scope : Nat) {callee : Node} {arguments : List Node}
    (formed : callee.Formed) (formed' : ∀ node ∈ arguments, node.Formed) :
    Regularly Value.Regular (evalCall sub scope callee arguments) := by
  apply regularly_bind (level scope formed)
  intro target fine
  apply regularly_unless fine
  apply regularly_bind (regularly_evalArguments level scope formed')
  intro values given
  cases values with
  | error value => exact regularly_pure given
  | ok values => exact regularly_apply level fine given

/-- A second branch that is missing is not entered. -/
theorem regularly_conditional (scope : Nat) {condition consequence alternative : Node}
    (tested : condition.Formed) (chosen : consequence.Formed)
    (otherwise : alternative = .missing ∨ alternative.Formed) :
    Regularly Value.Regular (evalConditional sub scope condition consequence alternative) := by
  apply regularly_bind (level scope tested)
  intro value fine
  apply regularly_unless fine
  apply regularly_ite
  · intro _
    exact level scope chosen
  · intro _
    apply regularly_ite
    · intro _
      exact @regularly_pure _ Value.Regular .null trivial
    · intro present
      rcases otherwise with rfl | formed
      · exact absurd rfl present
      · exact level scope formed

theorem regularly_step {node : Node} (scope : Nat) (formed : node.Formed) :
    Regularly Value.Regular (step sub node scope) := by
  cases formed with
  | program inner => exact regularly_evalProgram level scope inner trivial
  | block inner => exact regularly_evalBlock level scope inner trivial
  | statement inner => exact level scope inner
  | name => exact regularly_lookUp scope _
  | number => exact regularly_pure trivial
  | truth => exact regularly_pure trivial
  | conditional tested chosen => exact regularly_conditional level scope tested chosen (.inl rfl)
  | alternative tested chosen otherwise =>
      exact regularly_conditional level scope tested chosen (.inr otherwise)
  | call target given => exact regularly_evalCall level scope target given
  | function inner =>
      apply regularly_bind regularly_newTag
      intro tag _
      exact regularly_pure inner
  | returning inner =>
      apply regularly_bind (level scope inner)
      intro result fine
      apply regularly_unless fine
      apply regularly_bind regularly_newTag
      intro tag _
      exact regularly_pure fine
  | binding inner =>
      apply regularly_bind (level scope inner)
      intro result fine
      apply regularly_unless fine
      apply regularly_bind (regularly_assign scope _ fine)
      intro _ _
      exact regularly_pure trivial
  | unary known inner =>
      apply regularly_bind (level scope inner)
      intro value fine
      apply regularly_unless fine
      exact regularly_settle (fun _ => Value.regular_unaryOperation)
        fun _ => Value.stray_unaryOperation known
  | binary known first second =>
      apply regularly_bind (level scope first)
      intro left fine
      apply regularly_unless fine
      apply regularly_bind (level scope second)
      intro right fine
      apply regularly_unless fine
      exact regularly_settle (fun _ => Value.regular_binaryOperation)
        fun _ => Value.stray_binaryOperation known

end

theorem regularly_watched {node : Node} (scope : Nat) {run : ExceptT Stop Recording Value}
    (formed : node.Formed) (regularly : Regularly Value.Regular run) :
    Regularly Value.Regular (watched node scope run) := by
  intro machine past store events
  have entered : ∀ event ∈ past ++ [.entered node scope machine], event.Regular :=
    List.forall_mem_append.mpr ⟨events, List.forall_mem_singleton.mpr ⟨formed, store⟩⟩
  have inner := regularly machine _ store entered
  rw [Raising.run_watched]
  generalize StateT.run (StateT.run (ExceptT.run run) machine) _ = ended at inner
  rcases ended with ⟨⟨⟨stop⟩ | ⟨value⟩, reached⟩, seen⟩
  · exact inner
  · have fine : value.Regular := inner.value value rfl
    exact ⟨inner.store, List.forall_mem_append.mpr
      ⟨inner.events, List.forall_mem_singleton.mpr ⟨fine, inner.store⟩⟩, inner.value⟩

/-- A tree that can be run, recorded. -/
theorem regularly_record (limit : Option Int) (depth : Nat) {node : Node} (scope : Nat)
    (formed : node.Formed) : Regularly Value.Regular (record limit depth node scope) := by
  induction depth generalizing node scope with
  | zero => exact regularly_throw .tooDeep
  | succ depth ih =>
      apply regularly_bind regularly_visit
      intro count _
      apply regularly_watched scope formed
      cases exceeded? limit count with
      | some most => exact regularly_fail rfl
      | none => exact regularly_step ih scope formed

theorem regular_evaluateWithin {store : Store} (regular : store.Regular) {node : Node}
    (formed : node.Formed) (limit : Option Int) (depth scope : Nat) :
    (evaluateWithin depth limit node scope store).store.Regular ∧
      ∀ value, (evaluateWithin depth limit node scope store).result = .ok value →
        value.Regular := by
  have ended := regularly_record limit depth scope formed ⟨store, 0⟩ [] regular nofun
  unfold evaluateWithin
  rw [← record_eval limit depth node scope ⟨store, 0⟩ []]
  generalize ((record limit depth node scope).run.run ⟨store, 0⟩).run [] = last at ended
  rcases last with ⟨⟨⟨_ | _⟩ | ⟨value⟩, machine⟩, seen⟩
  · refine ⟨ended.store, ?_⟩
    rintro _ ⟨⟩
    rfl
  · exact ⟨ended.store, nofun⟩
  · refine ⟨ended.store, ?_⟩
    rintro _ ⟨⟩
    exact ended.value value rfl

/-- The programs that are read of any text, without the statements that are malformed in it. -/
def Recovered (program : Node) : Prop :=
  ∃ depth source, (Grammar.readText depth source).program = program

theorem Recovered.formed {program : Node} (recovered : Recovered program) : program.Formed := by
  obtain ⟨depth, source, rfl⟩ := recovered
  exact Grammar.readText_formed depth source

theorem Built.regular {store : Store} (built : Built Recovered store) : store.Regular := by
  induction built with
  | fresh => exact .fresh
  | run earlier member limit depth ih =>
      exact (regular_evaluateWithin ih member.formed limit depth Session.scope).1

/-- A program that is read of any text can be run, behind any others and under any limit: no node that
is entered is missing or lacks a part that it needs, and all its operators are known, also in the
functions that earlier programs left behind. So no error, bound, passed on or given, comes of a
missing part or of an operator that its rule does not know. -/
theorem recovered_runs_regularly {store : Store} (built : Built Recovered store) {program : Node}
    (recovered : Recovered program) (limit : Option Int) (depth scope : Nat) :
    program.Formed ∧
      (∀ event ∈ events limit depth program scope ⟨store, 0⟩, event.Regular) ∧
      ∀ value, (evaluateWithin depth limit program scope store).result = .ok value →
        value.Regular := by
  have formed := recovered.formed
  have ended := regularly_record limit depth scope formed ⟨store, 0⟩ [] built.regular nofun
  exact ⟨formed, ended.events, (regular_evaluateWithin built.regular formed limit depth scope).2⟩

/-- Both texts have mistakes. The function that is kept of the first is called by the second. -/
theorem recovered_runs_regularly_after_mistakes :
    let first := Grammar.readText 20 "let f = fn(x) \x7b let = 3; if (!x) \x7b -x \x7d \x7d; fn("
    let second := Grammar.readText 20 "f(1; f(false)"
    let store :=
      (evaluateWithin 50 none first.program Session.scope (Store.empty.addScope none)).store
    first.mistakes.length = 2 ∧ second.mistakes.length = 1 ∧ Built Recovered store ∧
      Recovered second.program ∧ second.program.Formed ∧
        ∀ event ∈ events none 50 second.program Session.scope ⟨store, 0⟩, event.Regular := by
  intro first second store
  have broken : first.mistakes.length = 2 := by decide +kernel
  have broken' : second.mistakes.length = 1 := by decide +kernel
  have built : Built Recovered store := .run .fresh ⟨_, _, rfl⟩ none 50
  have recovered : Recovered second.program := ⟨_, _, rfl⟩
  obtain ⟨formed, regular, _⟩ := recovered_runs_regularly built recovered none 50 Session.scope
  exact ⟨broken, broken', built, recovered, formed, regular⟩

end Evaluation

end MonkeyLang
