import MonkeyLang.Evaluation

/-!
What a run may touch. It adds to the scope it runs in, under names that its node binds outside every
function, and to scopes that it makes itself. All other scopes stay as they are, whatever functions
are called and however the run ends. Main statement: `eval_framed`.
-/

namespace MonkeyLang

namespace Node

mutual
/-- The names of the bindings in a node that stand in no function. -/
def targets : Node → List String
  | program statements | block _ statements => targetsAll statements
  | binding _ target value => target.name :: targets value
  | returning _ value => targets value
  | statement _ expression => targets expression
  | name _ | number .. | truth .. | function .. | missing => []
  | unary _ _ operand => targets operand
  | binary _ left _ right => targets left ++ targets right
  | conditional _ condition consequence alternative =>
    targets condition ++ targets consequence ++ targets alternative
  | call _ callee arguments => targets callee ++ targetsAll arguments

def targetsAll : List Node → List String
  | [] => []
  | node :: rest => targets node ++ targetsAll rest
end

end Node

/-- A scope after bindings under some names: none is lost, and those under other names are as they
were. -/
structure Scope.Extends (bound : List String) (before after : Scope) : Prop where
  outer : after.outer = before.outer
  names : before.names <+: after.names
  find? : ∀ name, name ∉ bound → after.find? name = before.find? name

namespace Scope.Extends

variable {bound : List String}

theorem refl (scope : Scope) : Scope.Extends bound scope scope :=
  ⟨rfl, List.prefix_refl _, fun _ _ => rfl⟩

theorem trans {first second third : Scope} (left : first.Extends bound second)
    (right : second.Extends bound third) : first.Extends bound third where
  outer := right.outer.trans left.outer
  names := left.names.trans right.names
  find? name other := (right.find? name other).trans (left.find? name other)

theorem mono {more : List String} {before after : Scope} (extended : before.Extends bound after)
    (subset : bound ⊆ more) : before.Extends more after where
  outer := extended.outer
  names := extended.names
  find? name other := extended.find? name fun inside => other (subset inside)

theorem names_assignAmong (name : String) (value : Value) (bindings : List (String × Value)) :
    bindings.map (·.1) <+: (assignAmong name value bindings).map (·.1) := by
  induction bindings with
  | nil => exact List.nil_prefix
  | cons binding rest ih =>
      obtain ⟨known, old⟩ := binding
      rw [assignAmong]
      split
      · rename_i same
        rw [same]
        exact List.prefix_refl _
      · exact (List.prefix_cons_inj known).mpr ih

theorem find?_assignAmong {name other : String} (value : Value) (bindings : List (String × Value))
    (differs : other ≠ name) :
    (assignAmong name value bindings).find? (·.1 = other) = bindings.find? (·.1 = other) := by
  induction bindings with
  | nil => simp [assignAmong, differs.symm]
  | cons binding rest ih =>
      obtain ⟨known, old⟩ := binding
      rw [assignAmong]
      split
      · rename_i same
        simp [same, differs.symm]
      · by_cases found : known = other
        · simp [found]
        · simp only [List.find?_cons, found, decide_false, ih]

theorem assign {name : String} (member : name ∈ bound) (value : Value) (scope : Scope) :
    scope.Extends bound (scope.assign name value) where
  outer := rfl
  names := names_assignAmong name value scope.bindings
  find? other outside := by
    have differs : other ≠ name := fun same => outside (same ▸ member)
    rw [Scope.find?, Scope.assign, find?_assignAmong value scope.bindings differs]
    rfl

end Scope.Extends

/-- A store after a run in one of its scopes that binds only some names there. -/
structure Store.Framed (scope : Nat) (bound : List String) (before after : Store) : Prop where
  size_le : before.scopes.size ≤ after.scopes.size
  others : ∀ other < before.scopes.size, other ≠ scope →
    after.scopes[other]? = before.scopes[other]?
  own : ∀ found, before.scopes[scope]? = some found →
    ∃ later, after.scopes[scope]? = some later ∧ found.Extends bound later

namespace Store.Framed

variable {scope : Nat} {bound : List String}

theorem of_scopes_eq {before after : Store} (same : after.scopes = before.scopes) :
    Framed scope bound before after where
  size_le := Nat.le_of_eq (congrArg Array.size same.symm)
  others other _ _ := by rw [same]
  own found present := ⟨found, by rw [same, present], .refl found⟩

theorem trans {first second third : Store} (left : Framed scope bound first second)
    (right : Framed scope bound second third) : Framed scope bound first third where
  size_le := Nat.le_trans left.size_le right.size_le
  others other old differs := by
    rw [right.others other (Nat.lt_of_lt_of_le old left.size_le) differs]
    exact left.others other old differs
  own found present := by
    obtain ⟨middle, present', earlier⟩ := left.own found present
    obtain ⟨last, present'', later⟩ := right.own middle present'
    exact ⟨last, present'', earlier.trans later⟩

theorem mono {more : List String} {before after : Store} (framed : Framed scope bound before after)
    (subset : bound ⊆ more) : Framed scope more before after where
  size_le := framed.size_le
  others := framed.others
  own found present := by
    obtain ⟨later, present', extended⟩ := framed.own found present
    exact ⟨later, present', extended.mono subset⟩

theorem assign {name : String} (member : name ∈ bound) (value : Value) (store : Store) :
    Framed scope bound store (store.assign scope name value) where
  size_le := by simp [Store.assign]
  others other _ differs := by
    simp [Store.assign, Array.getElem?_modify, differs.symm]
  own found present := by
    refine ⟨found.assign name value, ?_, .assign member value found⟩
    simp [Store.assign, Array.getElem?_modify, present]

/-- What happens in a scope that was added does not touch the scopes from before. -/
theorem of_addScope {outer : Option Nat} {inner : List String} {before after : Store}
    (framed : Framed before.scopes.size inner (before.addScope outer) after) :
    Framed scope bound before after := by
  have size : (before.addScope outer).scopes.size = before.scopes.size + 1 := Array.size_push _
  have kept : ∀ other < before.scopes.size, after.scopes[other]? = before.scopes[other]? := by
    intro other old
    rw [framed.others other (by omega) (Nat.ne_of_lt old), Store.addScope,
      Array.getElem?_push_lt old, Array.getElem?_eq_getElem old]
  refine ⟨?_, fun other old _ => kept other old, fun found present => ?_⟩
  · have bound := framed.size_le
    omega
  · obtain ⟨old, -⟩ := Array.getElem?_eq_some_iff.mp present
    exact ⟨found, (kept scope old).trans present, .refl found⟩

end Store.Framed

namespace Evaluation

/-- A run that binds in a scope only some names, and other names only in scopes it makes. -/
def Keeps {α : Type} (scope : Nat) (bound : List String) (run : Run α) : Prop :=
  ∀ machine : Machine, machine.store.Framed scope bound (run.run.run machine).2.store

section

variable {α β : Type} {scope : Nat} {bound : List String}

theorem keeps_of_scopes_eq {run : Run α}
    (same : ∀ machine, (run.run.run machine).2.store.scopes = machine.store.scopes) :
    Keeps scope bound run :=
  fun machine => .of_scopes_eq (same machine)

theorem keeps_pure (value : α) : Keeps scope bound (pure value) :=
  keeps_of_scopes_eq fun _ => rfl

theorem Keeps.mono {more : List String} {run : Run α} (keeps : Keeps scope bound run)
    (subset : bound ⊆ more) : Keeps scope more run :=
  fun machine => (keeps machine).mono subset

theorem keeps_bind {run : Run α} {next : α → Run β} (first : Keeps scope bound run)
    (second : ∀ value, Keeps scope bound (next value)) : Keeps scope bound (run >>= next) := by
  intro machine
  have earlier := first machine
  rw [ExceptT.run_bind, StateT.run_bind]
  generalize StateT.run (ExceptT.run run) machine = half at earlier ⊢
  rcases half with ⟨⟨stop⟩ | ⟨value⟩, middle⟩
  · exact earlier
  · exact earlier.trans (second value middle)

theorem keeps_ite {condition : Prop} [Decidable condition] {yes no : Run α}
    (first : Keeps scope bound yes) (second : Keeps scope bound no) :
    Keeps scope bound (if condition then yes else no) := by
  split
  · exact first
  · exact second

theorem keeps_newTag : Keeps scope bound newTag := keeps_of_scopes_eq fun _ => rfl

theorem keeps_assign {name : String} (member : name ∈ bound) (value : Value) :
    Keeps scope bound (assign scope name value) :=
  fun machine => .assign member value machine.store

theorem keeps_fail (cause : Cause) : Keeps scope bound (fail cause) :=
  keeps_ite (keeps_bind keeps_newTag fun _ => keeps_pure _) (keeps_of_scopes_eq fun _ => rfl)

theorem keeps_settle (result : Except Cause Value) : Keeps scope bound (settle result) := by
  cases result with
  | ok value => exact keeps_pure value
  | error cause => exact keeps_fail cause

theorem keeps_lookUp (inner : Nat) (name : String) : Keeps scope bound (lookUp inner name) := by
  apply keeps_bind (keeps_of_scopes_eq fun _ => rfl)
  intro machine
  split
  · exact keeps_pure _
  · exact keeps_fail _

theorem keeps_assignAll (pairs : List (Identifier × Value)) :
    Keeps scope (pairs.map (·.1.name)) (assignAll scope pairs) := by
  induction pairs with
  | nil => exact keeps_pure ()
  | cons pair rest ih =>
      apply keeps_bind (keeps_assign List.mem_cons_self pair.2)
      intro _
      exact ih.mono (List.subset_cons_self _ _)

/-- A run in a scope that it makes binds nothing in the scopes there are. -/
theorem keeps_newScope (outer : Nat) {inner : List String} {next : Nat → Run β}
    (within : ∀ made, Keeps made inner (next made)) :
    Keeps scope bound (newScope outer >>= next) :=
  fun machine => .of_addScope (within machine.store.scopes.size
    { machine with store := machine.store.addScope (some outer) })

end

section

variable {sub : Evaluator Run} (level : ∀ node scope, Keeps scope node.targets (sub node scope))
include level

theorem keeps_evalProgram (scope : Nat) (statements : List Node) (last : Value) :
    Keeps scope (Node.targetsAll statements) (evalProgram sub scope last statements) := by
  induction statements generalizing last with
  | nil => exact keeps_pure last
  | cons node rest ih =>
      apply keeps_bind ((level node scope).mono (List.subset_append_left _ _))
      intro value
      split
      · exact keeps_pure _
      · exact keeps_pure _
      · exact (ih value).mono (List.subset_append_right _ _)

theorem keeps_evalBlock (scope : Nat) (statements : List Node) (last : Value) :
    Keeps scope (Node.targetsAll statements) (evalBlock sub scope last statements) := by
  induction statements generalizing last with
  | nil => exact keeps_pure last
  | cons node rest ih =>
      apply keeps_bind ((level node scope).mono (List.subset_append_left _ _))
      intro value
      exact keeps_ite (keeps_pure value) ((ih value).mono (List.subset_append_right _ _))

theorem keeps_evalArguments (scope : Nat) (arguments : List Node) :
    Keeps scope (Node.targetsAll arguments) (evalArguments sub scope arguments) := by
  induction arguments with
  | nil => exact keeps_pure _
  | cons node rest ih =>
      apply keeps_bind ((level node scope).mono (List.subset_append_left _ _))
      intro value
      apply keeps_ite (keeps_pure _)
      exact keeps_bind (ih.mono (List.subset_append_right _ _)) fun others => keeps_pure _

/-- A call binds the parameters, and what the body binds, in a scope of its own. -/
theorem keeps_apply {scope : Nat} {bound : List String} (callee : Value) (arguments : List Value) :
    Keeps scope bound (apply sub callee arguments) := by
  cases callee with
  | function parameters body outer tag =>
      apply keeps_ite _ (keeps_fail _)
      apply keeps_newScope outer
      intro made
      have given : Keeps made _ (assignAll made (parameters.zip arguments)) := keeps_assignAll _
      apply keeps_bind (given.mono (List.subset_append_left _ body.targets))
      intro _
      apply keeps_bind ((level body made).mono (List.subset_append_right _ _))
      intro value
      exact keeps_pure _
  | integer | boolean | null | returned | error => exact keeps_fail _

theorem keeps_step (node : Node) (scope : Nat) :
    Keeps scope node.targets (step sub node scope) := by
  cases node with
  | program statements => exact keeps_evalProgram level scope statements .null
  | statement token expression => exact level expression scope
  | block token statements => exact keeps_evalBlock level scope statements .null
  | name identifier => exact keeps_lookUp scope identifier.name
  | number token value => exact keeps_pure _
  | truth token value => exact keeps_pure _
  | missing => exact keeps_fail _
  | function token parameters body => exact keeps_bind keeps_newTag fun tag => keeps_pure _
  | returning token value =>
      apply keeps_bind (level value scope)
      intro result
      exact keeps_ite (keeps_pure result) (keeps_bind keeps_newTag fun tag => keeps_pure _)
  | binding token target value =>
      apply keeps_bind ((level value scope).mono (List.subset_cons_self _ _))
      intro result
      apply keeps_ite (keeps_pure result)
      exact keeps_bind (keeps_assign List.mem_cons_self result) fun _ => keeps_pure _
  | unary token operator operand =>
      apply keeps_bind (level operand scope)
      intro value
      exact keeps_ite (keeps_pure value) (keeps_settle _)
  | binary token left operator right =>
      apply keeps_bind ((level left scope).mono (List.subset_append_left _ _))
      intro first
      apply keeps_ite (keeps_pure first)
      apply keeps_bind ((level right scope).mono (List.subset_append_right _ _))
      intro second
      exact keeps_ite (keeps_pure second) (keeps_settle _)
  | conditional token condition consequence alternative =>
      have all : (Node.conditional token condition consequence alternative).targets =
          condition.targets ++ (consequence.targets ++ alternative.targets) :=
        List.append_assoc _ _ _
      rw [all]
      apply keeps_bind ((level condition scope).mono (List.subset_append_left _ _))
      intro value
      apply keeps_ite (keeps_pure value)
      have branches : consequence.targets ++ alternative.targets ⊆
          condition.targets ++ (consequence.targets ++ alternative.targets) :=
        List.subset_append_right _ _
      apply keeps_ite
      · exact ((level consequence scope).mono (List.subset_append_left _ _)).mono branches
      · apply keeps_ite (keeps_pure _)
        exact ((level alternative scope).mono (List.subset_append_right _ _)).mono branches
  | call token callee arguments =>
      apply keeps_bind ((level callee scope).mono (List.subset_append_left _ _))
      intro target
      apply keeps_ite (keeps_pure target)
      apply keeps_bind ((keeps_evalArguments level scope arguments).mono
        (List.subset_append_right _ _))
      intro values
      cases values with
      | error value => exact keeps_pure value
      | ok values => exact keeps_apply level target values

end

/-- However a run in a scope ends, no other scope that there was before it is changed. The scope
itself loses no name, keeps the scope around it, and holds what it held under every name that the
node does not bind outside its functions. All else is bound in scopes made during the run. -/
theorem eval_framed (limit : Option Int) (depth : Nat) (node : Node) (scope : Nat)
    (machine : Machine) :
    machine.store.Framed scope node.targets
      ((eval limit depth node scope).run.run machine).2.store := by
  suffices keeps : Keeps scope node.targets (eval limit depth node scope) from keeps machine
  induction depth generalizing node scope with
  | zero => exact keeps_of_scopes_eq fun _ => rfl
  | succ depth ih =>
      apply keeps_bind (keeps_of_scopes_eq fun _ => rfl)
      intro count
      split
      · exact keeps_fail _
      · exact keeps_step ih node scope

end Evaluation

end MonkeyLang
