import MonkeyLang.Interpretation
import MonkeyLang.Proofs.Store.Sound
import MonkeyLang.Proofs.Store.Without

/-!
Bindings that a program has nothing to do with. A run that starts where no function mentions a name, of
a node that does not mention it either, comes to the same whatever the name is bound to in its scope
(`unmentioned_immaterial`).
-/

namespace MonkeyLang

namespace Value

variable {name : String} {inside : Nat → Prop} {value : Value}

/-- A value that can be computed where no scope was made holds no function. -/
theorem clear_of_sound (sound : value.Sound (fun _ => True) 0) : value.Clear name inside := by
  induction value with
  | returned inner tag ih =>
      have clear := ih sound.2
      exact ⟨clear.unnamed, clear.within⟩
  | function parameters body scope tag => exact absurd sound.2 (Nat.not_lt_zero scope)
  | integer | boolean | null | error => exact ⟨nofun, nofun⟩

theorem Clear.unwrap (clear : value.Clear name inside) : value.unwrap.Clear name inside := by
  cases value with
  | returned inner tag => exact ⟨clear.unnamed, clear.within⟩
  | integer | boolean | null | error | function => exact clear

end Value

namespace Evaluation

def Machine.without (machine : Machine) (top : Nat) (name : String) : Machine :=
  { machine with store := machine.store.without top name }

variable (top : Nat) (name : String) (inside : Nat → Prop)

/-- Nothing in some scopes leads out of them or mentions the name, and scopes yet to be made are among
them. -/
structure Machine.Secluded (machine : Machine) : Prop where
  closed : machine.store.Closed top name inside
  fresh : ∀ index, machine.store.scopes.size ≤ index → inside index

/-- What a run comes to that overlooks the name: the same without what the name is bound to. -/
structure Overlooked {α : Type} (good : α → Prop) (ended unseen : Except Stop α × Machine) : Prop where
  same : unseen = (ended.1, ended.2.without top name)
  secluded : ended.2.Secluded top name inside
  value : ∀ value, ended.1 = .ok value → good value

def Overlooks {α : Type} (good : α → Prop) (run : Run α) : Prop :=
  ∀ machine : Machine, machine.Secluded top name inside →
    Overlooked top name inside good (run.run.run machine) (run.run.run (machine.without top name))

section

variable {top name inside} {α β : Type} {good : α → Prop} {good' : β → Prop}

theorem overlooks_pure {value : α} (fine : good value) :
    Overlooks top name inside good (pure value) := by
  intro machine secluded
  refine ⟨rfl, secluded, ?_⟩
  rintro _ ⟨⟩
  exact fine

theorem overlooks_throw (stop : Stop) : Overlooks top name inside good (throw stop) :=
  fun _ secluded => ⟨rfl, secluded, nofun⟩

theorem overlooks_bind {run : Run α} {next : α → Run β} (first : Overlooks top name inside good run)
    (second : ∀ value, good value → Overlooks top name inside good' (next value)) :
    Overlooks top name inside good' (run >>= next) := by
  intro machine secluded
  have overlooked := first machine secluded
  rw [ExceptT.run_bind, StateT.run_bind, StateT.run_bind]
  generalize StateT.run (ExceptT.run run) machine = half at overlooked ⊢
  generalize StateT.run (ExceptT.run run) (machine.without top name) = half' at overlooked ⊢
  obtain ⟨rfl, secluded, value⟩ := overlooked
  rcases half with ⟨⟨stop⟩ | ⟨found⟩, reached⟩
  · exact ⟨rfl, secluded, nofun⟩
  · exact second found (value found rfl) reached secluded

theorem overlooks_ite {condition : Prop} [Decidable condition] {yes no : Run α}
    (first : Overlooks top name inside good yes) (second : Overlooks top name inside good no) :
    Overlooks top name inside good (if condition then yes else no) := by
  split
  · exact first
  · exact second

theorem overlooks_modifyGet {change : Machine → α × Machine}
    (same : ∀ machine, change (machine.without top name) =
      ((change machine).1, (change machine).2.without top name))
    (kept : ∀ machine : Machine, machine.Secluded top name inside →
      (change machine).2.Secluded top name inside ∧ good (change machine).1) :
    Overlooks top name inside good (modifyGet change) := by
  intro machine secluded
  obtain ⟨secluded, fine⟩ := kept machine secluded
  refine ⟨?_, secluded, ?_⟩
  · change (Except.ok (change (machine.without top name)).1, (change (machine.without top name)).2) = _
    rw [same]
    rfl
  · rintro _ ⟨⟩
    exact fine

theorem overlooks_visit : Overlooks top name inside (fun _ => True) visit :=
  overlooks_modifyGet (fun _ => rfl) fun _ secluded => ⟨⟨secluded.closed, secluded.fresh⟩, trivial⟩

theorem overlooks_newTag : Overlooks top name inside (fun _ => True) newTag :=
  overlooks_modifyGet (fun _ => rfl)
    fun _ secluded => ⟨⟨secluded.closed.countTag, secluded.fresh⟩, trivial⟩

theorem overlooks_newScope {outer : Nat} (within : inside outer) :
    Overlooks top name inside inside (newScope outer) := by
  apply overlooks_modifyGet
  · intro machine
    simp only [Machine.without, Store.addScope_without, Store.size_without]
  · intro machine secluded
    refine ⟨⟨secluded.closed.addScope within, fun index bound => ?_⟩,
      secluded.fresh _ (Nat.le_refl _)⟩
    rw [Store.size_addScope] at bound
    exact secluded.fresh index (Nat.le_of_succ_le bound)

theorem overlooks_assign (scope : Nat) {other : String} (differs : other ≠ name) {value : Value}
    (clear : value.Clear name inside) :
    Overlooks top name inside (fun _ => True) (assign scope other value) := by
  apply overlooks_modifyGet
  · intro machine
    simp only [Machine.without, Store.assign_without _ _ _ differs]
  · intro machine secluded
    refine ⟨⟨secluded.closed.assign scope other clear, fun index bound => ?_⟩, trivial⟩
    rw [Store.size_assign] at bound
    exact secluded.fresh index bound

theorem overlooks_fail (cause : Cause) :
    Overlooks top name inside (Value.Clear name inside) (fail cause) := by
  apply overlooks_ite _ (overlooks_throw .unwritable)
  apply overlooks_bind overlooks_newTag
  intro tag _
  exact overlooks_pure ⟨nofun, nofun⟩

theorem overlooks_settle {result : Except Cause Value}
    (clear : ∀ value, result = .ok value → value.Clear name inside) :
    Overlooks top name inside (Value.Clear name inside) (settle result) := by
  cases result with
  | ok value => exact overlooks_pure (clear value rfl)
  | error cause => exact overlooks_fail cause

/-- What comes of a lookup is settled by what is found. -/
theorem run_lookUp (scope : Nat) (name : String) (machine : Machine) :
    (lookUp scope name : Run Value).run.run machine =
      ((machine.store.find? scope name).elim (fail (.unbound name)) pure : Run Value).run.run
        machine := by
  unfold lookUp
  rw [ExceptT.run_bind, StateT.run_bind]
  have got : (get : Run Machine).run.run machine = pure (.ok machine, machine) := rfl
  rw [got, pure_bind]
  dsimp only
  cases machine.store.find? scope name <;> rfl

theorem overlooks_lookUp {scope : Nat} (within : inside scope) {other : String}
    (differs : other ≠ name) :
    Overlooks top name inside (Value.Clear name inside) (lookUp scope other) := by
  intro machine secluded
  have found : (machine.without top name).store.find? scope other =
      machine.store.find? scope other := Store.find?_without machine.store differs scope
  rw [run_lookUp, run_lookUp, found]
  cases bound : machine.store.find? scope other with
  | some value => exact overlooks_pure (secluded.closed.clear_search differs within bound) _ secluded
  | none => exact overlooks_fail (.unbound other) _ secluded

theorem overlooks_assignAll (scope : Nat) {pairs : List (Identifier × Value)}
    (fine : ∀ pair ∈ pairs, pair.1.name ≠ name ∧ pair.2.Clear name inside) :
    Overlooks top name inside (fun _ => True) (assignAll scope pairs) := by
  induction pairs with
  | nil => exact overlooks_pure trivial
  | cons pair rest ih =>
      obtain ⟨⟨differs, clear⟩, there⟩ := List.forall_mem_cons.mp fine
      apply overlooks_bind (overlooks_assign scope differs clear)
      intro _ _
      exact ih there

/-- An error is handed on as it is. -/
theorem overlooks_unless {value : Value} {run : Run Value} (clear : value.Clear name inside)
    (later : Overlooks top name inside (Value.Clear name inside) run) :
    Overlooks top name inside (Value.Clear name inside) (if value.isError then pure value else run) :=
  overlooks_ite (overlooks_pure clear) later

end

section

variable {top name inside} {sub : Evaluator Run}
  (level : ∀ {node : Node} {scope : Nat}, name ∉ node.names → inside scope →
    Overlooks top name inside (Value.Clear name inside) (sub node scope))
  {scope : Nat} (within : inside scope)
include level within

theorem overlooks_evalProgram {statements : List Node} (absent : name ∉ Node.namesAll statements)
    {last : Value} (clear : last.Clear name inside) :
    Overlooks top name inside (Value.Clear name inside) (evalProgram sub scope last statements) := by
  induction statements generalizing last with
  | nil => exact overlooks_pure clear
  | cons node rest ih =>
      rw [Node.namesAll, List.mem_append, not_or] at absent
      apply overlooks_bind (level absent.1 within)
      intro value clear
      cases value with
      | returned inner tag => exact overlooks_pure clear.unwrap
      | error cause tag => exact overlooks_pure clear
      | integer | boolean | null | function => exact ih absent.2 clear

theorem overlooks_evalBlock {statements : List Node} (absent : name ∉ Node.namesAll statements)
    {last : Value} (clear : last.Clear name inside) :
    Overlooks top name inside (Value.Clear name inside) (evalBlock sub scope last statements) := by
  induction statements generalizing last with
  | nil => exact overlooks_pure clear
  | cons node rest ih =>
      rw [Node.namesAll, List.mem_append, not_or] at absent
      apply overlooks_bind (level absent.1 within)
      intro value clear
      exact overlooks_ite (overlooks_pure clear) (ih absent.2 clear)

variable (name inside) in
omit level within in
/-- The values of arguments, or the first error among them. -/
def ClearArguments : Except Value (List Value) → Prop
  | .ok values => ∀ value ∈ values, value.Clear name inside
  | .error value => value.Clear name inside

theorem overlooks_evalArguments {arguments : List Node} (absent : name ∉ Node.namesAll arguments) :
    Overlooks top name inside (ClearArguments name inside) (evalArguments sub scope arguments) := by
  induction arguments with
  | nil =>
      have empty : ClearArguments name inside (.ok []) := nofun
      exact overlooks_pure empty
  | cons node rest ih =>
      rw [Node.namesAll, List.mem_append, not_or] at absent
      apply overlooks_bind (level absent.1 within)
      intro value clear
      apply overlooks_ite
      · have given : ClearArguments name inside (.error value) := clear
        exact overlooks_pure given
      · apply overlooks_bind (ih absent.2)
        intro others given
        cases others with
        | error other =>
            have first : ClearArguments name inside (.error other) := given
            exact overlooks_pure first
        | ok others =>
            have all : ClearArguments name inside (.ok (value :: others)) :=
              List.forall_mem_cons.mpr ⟨clear, given⟩
            exact overlooks_pure all

theorem overlooks_evalConditional {condition consequence alternative : Node}
    (absent : name ∉ condition.names ∧ name ∉ consequence.names ∧ name ∉ alternative.names) :
    Overlooks top name inside (Value.Clear name inside)
      (evalConditional sub scope condition consequence alternative) := by
  apply overlooks_bind (level absent.1 within)
  intro value clear
  apply overlooks_unless clear
  apply overlooks_ite (level absent.2.1 within)
  exact overlooks_ite (overlooks_pure ⟨nofun, nofun⟩) (level absent.2.2 within)

omit within in
theorem overlooks_apply {callee : Value} (clear : callee.Clear name inside) {arguments : List Value}
    (given : ∀ argument ∈ arguments, argument.Clear name inside) :
    Overlooks top name inside (Value.Clear name inside) (apply sub callee arguments) := by
  cases callee with
  | function parameters body outer tag =>
      have unnamed := clear.unnamed
      rw [Value.names, List.mem_append, not_or] at unnamed
      apply overlooks_ite _ (overlooks_fail _)
      apply overlooks_bind (overlooks_newScope (clear.within outer rfl))
      intro scope within
      have bound : Overlooks top name inside (fun _ => True)
          (assignAll scope (parameters.zip arguments)) := by
        apply overlooks_assignAll
        intro pair member
        obtain ⟨parameter, argument⟩ := List.of_mem_zip member
        refine ⟨fun same => unnamed.1 ?_, given pair.2 argument⟩
        rw [← same]
        exact List.mem_map_of_mem parameter
      apply overlooks_bind bound
      intro _ _
      apply overlooks_bind (level unnamed.2 within)
      intro value clear
      exact overlooks_pure clear.unwrap
  | integer | boolean | null | returned | error => exact overlooks_fail _

theorem overlooks_evalCall {callee : Node} {arguments : List Node} (absent : name ∉ callee.names)
    (absent' : name ∉ Node.namesAll arguments) :
    Overlooks top name inside (Value.Clear name inside) (evalCall sub scope callee arguments) := by
  apply overlooks_bind (level absent within)
  intro target clear
  apply overlooks_unless clear
  apply overlooks_bind (overlooks_evalArguments level within absent')
  intro values given
  cases values with
  | error value =>
      have first : value.Clear name inside := given
      exact overlooks_pure first
  | ok values => exact overlooks_apply level clear given

theorem overlooks_step {node : Node} (absent : name ∉ node.names) :
    Overlooks top name inside (Value.Clear name inside) (step sub node scope) := by
  cases node with
  | program statements => exact overlooks_evalProgram level within absent ⟨nofun, nofun⟩
  | block token statements => exact overlooks_evalBlock level within absent ⟨nofun, nofun⟩
  | statement token expression => exact level absent within
  | number token value => exact overlooks_pure ⟨nofun, nofun⟩
  | truth token value => exact overlooks_pure ⟨nofun, nofun⟩
  | missing => exact overlooks_fail .missingNode
  | name identifier =>
      rw [Node.names, List.mem_singleton] at absent
      exact overlooks_lookUp within (Ne.symm absent)
  | function token parameters body =>
      apply overlooks_bind overlooks_newTag
      intro tag _
      apply overlooks_pure
      refine ⟨absent, ?_⟩
      rintro _ ⟨⟩
      exact within
  | returning token value =>
      rw [Node.names] at absent
      apply overlooks_bind (level absent within)
      intro result clear
      apply overlooks_unless clear
      apply overlooks_bind overlooks_newTag
      intro tag _
      exact overlooks_pure ⟨clear.unnamed, clear.within⟩
  | binding token target value =>
      rw [Node.names, List.mem_cons, not_or] at absent
      apply overlooks_bind (level absent.2 within)
      intro result clear
      apply overlooks_unless clear
      apply overlooks_bind (overlooks_assign scope (Ne.symm absent.1) clear)
      intro _ _
      exact overlooks_pure ⟨nofun, nofun⟩
  | unary token operator operand =>
      rw [Node.names] at absent
      apply overlooks_bind (level absent within)
      intro value clear
      apply overlooks_unless clear
      apply overlooks_settle
      intro result computed
      exact Value.clear_of_sound (Value.usable_of_unaryOperation computed).sound
  | binary token left operator right =>
      rw [Node.names, List.mem_append, not_or] at absent
      apply overlooks_bind (level absent.1 within)
      intro first clear
      apply overlooks_unless clear
      apply overlooks_bind (level absent.2 within)
      intro second clear
      apply overlooks_unless clear
      apply overlooks_settle
      intro result computed
      exact Value.clear_of_sound (Value.usable_of_binaryOperation computed).sound
  | conditional token condition consequence alternative =>
      rw [Node.names, List.mem_append, List.mem_append, not_or, not_or, and_assoc] at absent
      exact overlooks_evalConditional level within absent
  | call token callee arguments =>
      rw [Node.names, List.mem_append, not_or] at absent
      exact overlooks_evalCall level within absent.1 absent.2

end

theorem overlooks_eval {top : Nat} {name : String} {inside : Nat → Prop} (limit : Option Int)
    (depth : Nat) {node : Node} {scope : Nat} (absent : name ∉ node.names) (within : inside scope) :
    Overlooks top name inside (Value.Clear name inside) (eval limit depth node scope) := by
  induction depth generalizing node scope with
  | zero => exact overlooks_throw .tooDeep
  | succ depth ih =>
      apply overlooks_bind overlooks_visit
      intro count _
      cases exceeded? limit count with
      | some most => exact overlooks_fail (.stepLimit most)
      | none => exact overlooks_step ih within absent

/-- The outcome without what a name is bound to in a scope. -/
def Outcome.without (outcome : Outcome) (top : Nat) (name : String) : Outcome :=
  { outcome with store := outcome.store.without top name }

/-- A run does not see what a name is bound to that nothing mentions. -/
theorem evaluateWithin_without {store : Store} {top : Nat} {name : String}
    (oblivious : store.Oblivious top name) {node : Node} (absent : name ∉ node.names) (depth : Nat)
    (limit : Option Int) :
    evaluateWithin depth limit node top (store.without top name) =
      (evaluateWithin depth limit node top store).without top name := by
  have secluded : Machine.Secluded top name _ ⟨store, 0⟩ :=
    ⟨oblivious.closed, fun index bound => .inr bound⟩
  have unseen := (overlooks_eval limit depth absent (.inl .start) ⟨store, 0⟩ secluded).same
  have start : (Machine.mk store 0).without top name = ⟨store.without top name, 0⟩ := rfl
  rw [start] at unseen
  unfold evaluateWithin
  rw [unseen]
  rcases (eval limit depth node top).run.run ⟨store, 0⟩ with ⟨⟨⟨⟩ | ⟨⟩⟩ | ⟨value⟩, reached⟩ <;> rfl

/-- What a name is bound to in a scope makes no difference to a run there if neither the node nor any
function that the run can come to mentions the name: binding it, binding it to something else or
taking it out changes neither the value or fault, nor the number of visits, nor any other binding of
the scope. -/
theorem unmentioned_immaterial {store store' : Store} {top : Nat} {name : String}
    (others : store'.without top name = store.without top name) (oblivious : store.Oblivious top name)
    {node : Node} (absent : name ∉ node.names) (depth : Nat) (limit : Option Int) :
    let outcome := evaluateWithin depth limit node top store
    let outcome' := evaluateWithin depth limit node top store'
    outcome'.result = outcome.result ∧ outcome'.visited = outcome.visited ∧
      (outcome'.store.bindings top).filter (·.1 ≠ name) =
        (outcome.store.bindings top).filter (·.1 ≠ name) := by
  intro outcome outcome'
  have alike : outcome'.without top name = outcome.without top name :=
    calc
      _ = evaluateWithin depth limit node top (store'.without top name) :=
        (evaluateWithin_without (oblivious.of_without_eq others) absent depth limit).symm
      _ = evaluateWithin depth limit node top (store.without top name) := by rw [others]
      _ = _ := evaluateWithin_without oblivious absent depth limit
  have results : (outcome'.without top name).result = (outcome.without top name).result := by
    rw [alike]
  have visits : (outcome'.without top name).visited = (outcome.without top name).visited := by
    rw [alike]
  have stores : outcome'.store.without top name = outcome.store.without top name :=
    congrArg Outcome.store alike
  refine ⟨results, visits, ?_⟩
  rw [← Store.bindings_without, ← Store.bindings_without, stores]

/-- A function mentions the name, but only by the name can a run come to it. -/
theorem unmentioned_immaterial_closure :
    let first := (Parsed.ofText
      "let make = fn(a) \x7b fn(b) \x7b a + b \x7d \x7d; let x = fn() \x7b x \x7d; let add = make(2)").program
    let store := (evaluateWithin 50 none first 0 (Store.empty.addScope none)).store
    let program := (Parsed.ofText "let z = add(3); add(z) < y").program
    store.names 0 = ["make", "x", "add"] ∧ store.Oblivious 0 "x" ∧ "x" ∉ program.names ∧
      ∀ store' ∈ [store.assign 0 "x" (.integer 5), store.without 0 "x"],
        (evaluateWithin 50 none program 0 store').result =
          (evaluateWithin 50 none program 0 store).result := by
  intro first store program
  have listed : ∀ index ∈ [0, 1], ∀ scope ∈ store.scopes[index]?,
      (∀ outer ∈ scope.outer, outer ∈ [0, 1]) ∧
        ∀ binding ∈ scope.bindings, ¬(index = 0 ∧ binding.1 = "x") →
          "x" ∉ binding.2.names ∧ ∀ inner ∈ binding.2.scope?, inner ∈ [0, 1] := by
    decide +kernel
  have closed : store.Closed 0 "x" (· ∈ [0, 1]) := by
    constructor
    · intro index scope present inside
      exact (listed index inside scope present).1
    · intro index scope present inside binding member followed
      obtain ⟨unnamed, within⟩ := (listed index inside scope present).2 binding member followed
      exact ⟨unnamed, within⟩
  have oblivious : store.Oblivious 0 "x" := Store.oblivious_of_closed (by decide) closed
  have absent : "x" ∉ program.names := by decide +kernel
  refine ⟨by decide +kernel, oblivious, absent, ?_⟩
  intro store' member
  have others : store'.without 0 "x" = store.without 0 "x" := by
    simp only [List.mem_cons, List.not_mem_nil, or_false] at member
    rcases member with rfl | rfl
    · exact store.without_assign 0 "x" (.integer 5)
    · exact store.without_without 0 "x"
  exact (unmentioned_immaterial others oblivious absent 50 none).1

end Evaluation

end MonkeyLang
