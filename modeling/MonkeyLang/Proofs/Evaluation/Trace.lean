import MonkeyLang.Proofs.Evaluation.Relation

/-!
Runs that keep a record. The rules are those of every run; only where the levels are tied together
is it noted that a node is entered, and with which value it is left. Keeping the record changes
nothing else (`record_eval`).
-/

namespace MonkeyLang.Evaluation

/-- What happens in a run, with the machine at that moment. -/
inductive Event where
  | entered (node : Node) (scope : Nat) (machine : Machine)
  | left (value : Value) (machine : Machine)
  deriving Repr

/-- The machine at a visit of a node, the visit counted. -/
def Event.visit? : Event → Option Machine
  | entered _ _ machine => some machine
  | left .. => none

/-- A machine with a record of events, the latest last. -/
abbrev Recording := StateT Machine (StateM (List Event))

def note (event : Event) : ExceptT Stop Recording Unit :=
  modifyThe (List Event) (· ++ [event])

/-- A run with a note of the node it is about and the value it comes to. -/
def watched (node : Node) (scope : Nat) (run : ExceptT Stop Recording Value) :
    ExceptT Stop Recording Value := do
  note (.entered node scope (← getThe Machine))
  let value ← run
  note (.left value (← getThe Machine))
  pure value

/-- Evaluates a node as `eval` does, and watches every node. -/
def record (limit : Option Int) : Nat → Evaluator (ExceptT Stop Recording)
  | 0 => fun _ _ => throw .tooDeep
  | depth + 1 => fun node scope => do
    let count ← visit
    watched node scope <|
      match exceeded? limit count with
      | some most => fail (.stepLimit most)
      | none => step (record limit depth) node scope

/-- What happens while a node is evaluated. -/
def events (limit : Option Int) (depth : Nat) (node : Node) (scope : Nat) (machine : Machine) :
    List Event :=
  (((record limit depth node scope).run.run machine).run []).2

/-- The machine at each visit of a node, in the order of the visits. -/
def visits (limit : Option Int) (depth : Nat) (node : Node) (scope : Nat) (machine : Machine) :
    List Machine :=
  (events limit depth node scope machine).filterMap Event.visit?

namespace Raising

variable {α β : Type}

/-- What a run comes to: a value, an error that was raised, or what stopped it. -/
def outcome (run : Raise (StateM Machine) α) (machine : Machine) :
    Except Stop (Except Value α) × Machine :=
  run.run.run.run machine

def recorded (run : Raise Recording α) (machine : Machine) (past : List Event) :
    (Except Stop (Except Value α) × Machine) × List Event :=
  (run.run.run.run machine).run past

theorem outcome_bind (run : Raise (StateM Machine) α) (next : α → Raise (StateM Machine) β)
    (machine : Machine) :
    outcome (run >>= next) machine =
      match outcome run machine with
      | (.ok (.ok value), reached) => outcome (next value) reached
      | (.ok (.error error), reached) => (.ok (.error error), reached)
      | (.error stop, reached) => (.error stop, reached) := by
  simp only [outcome]
  rw [ExceptT.run_bind, ExceptT.run_bind, StateT.run_bind]
  generalize StateT.run (ExceptT.run (ExceptT.run run)) machine = first
  rcases first with ⟨⟨stop⟩ | ⟨error⟩ | ⟨value⟩, reached⟩ <;> rfl

theorem recorded_bind (run : Raise Recording α) (next : α → Raise Recording β)
    (machine : Machine) (past : List Event) :
    recorded (run >>= next) machine past =
      match recorded run machine past with
      | ((.ok (.ok value), reached), seen) => recorded (next value) reached seen
      | ((.ok (.error error), reached), seen) => ((.ok (.error error), reached), seen)
      | ((.error stop, reached), seen) => ((.error stop, reached), seen) := by
  simp only [recorded]
  rw [ExceptT.run_bind, ExceptT.run_bind, StateT.run_bind, StateT.run_bind]
  generalize StateT.run (StateT.run (ExceptT.run (ExceptT.run run)) machine) past = first
  rcases first with ⟨⟨⟨stop⟩ | ⟨error⟩ | ⟨value⟩, reached⟩, seen⟩ <;> rfl

theorem outcome_raised (run : Run Value) (machine : Machine) :
    outcome (raised run) machine =
      match run.run.run machine with
      | (.ok value, reached) =>
        (.ok (if value.isError then .error value else .ok value), reached)
      | (.error stop, reached) => (.error stop, reached) := by
  simp only [outcome]
  rw [run_raised, ExceptT.run_bind, StateT.run_bind]
  generalize StateT.run (ExceptT.run run) machine = first
  rcases first with ⟨⟨stop⟩ | ⟨value⟩, reached⟩ <;> rfl

theorem recorded_raised (run : ExceptT Stop Recording Value) (machine : Machine)
    (past : List Event) :
    recorded (raised run) machine past =
      match (run.run.run machine).run past with
      | ((.ok value, reached), seen) =>
        ((.ok (if value.isError then .error value else .ok value), reached), seen)
      | ((.error stop, reached), seen) => ((.error stop, reached), seen) := by
  simp only [recorded]
  rw [run_raised, ExceptT.run_bind, StateT.run_bind, StateT.run_bind]
  generalize StateT.run (StateT.run (ExceptT.run run) machine) past = first
  rcases first with ⟨⟨⟨stop⟩ | ⟨value⟩, reached⟩, seen⟩ <;> rfl

theorem run_watched (node : Node) (scope : Nat) (run : ExceptT Stop Recording Value)
    (machine : Machine) (past : List Event) :
    ((watched node scope run).run.run machine).run past =
      match (run.run.run machine).run (past ++ [.entered node scope machine]) with
      | ((.ok value, reached), seen) => ((.ok value, reached), seen ++ [.left value reached])
      | ((.error stop, reached), seen) => ((.error stop, reached), seen) := by
  change ((run >>= fun value => do
    note (.left value (← getThe Machine))
    pure value).run.run machine).run (past ++ [.entered node scope machine]) = _
  rw [ExceptT.run_bind, StateT.run_bind, StateT.run_bind]
  generalize StateT.run (StateT.run (ExceptT.run run) machine) _ = first
  rcases first with ⟨⟨⟨stop⟩ | ⟨value⟩, reached⟩, seen⟩ <;> rfl

/-- The note of the value a run leaves its node with, raised or not. -/
def leaving : Except Stop (Except Value Value) × Machine → List Event
  | (.ok (.ok value), machine) | (.ok (.error value), machine) => [.left value machine]
  | (.error _, _) => []

theorem recorded_watched (node : Node) (scope : Nat) (run : ExceptT Stop Recording Value)
    (machine : Machine) (past : List Event) :
    let inner := recorded (raised run) machine (past ++ [.entered node scope machine])
    recorded (raised (watched node scope run)) machine past =
      (inner.1, inner.2 ++ leaving inner.1) := by
  intro inner
  unfold inner
  rw [recorded_raised, recorded_raised, run_watched]
  generalize StateT.run (StateT.run (ExceptT.run run) machine) _ = first
  rcases first with ⟨⟨⟨stop⟩ | ⟨value⟩, reached⟩, seen⟩
  · simp [leaving]
  · cases error : value.isError <;> simp [leaving, error]

/-- A node that is evaluated counts as visited first, and then its rule starts. -/
def entering (machine : Machine) : Machine := { machine with visited := machine.visited + 1 }

theorem recorded_level (limit : Option Int) (depth : Nat) (node : Node) (scope : Nat)
    (machine : Machine) (past : List Event) :
    let rule : Raise Recording Value :=
      visited (fun node scope => raised (record limit depth node scope)) limit
        (machine.visited + 1) node scope
    let inner := recorded rule (entering machine) (past ++ [.entered node scope (entering machine)])
    recorded (raised (record limit (depth + 1) node scope)) machine past =
      (inner.1, inner.2 ++ leaving inner.1) := by
  intro rule inner
  unfold record
  rw [raised_bind, recorded_bind]
  change recorded (raised (watched node scope _)) (entering machine) past = _
  rw [recorded_watched]
  have same := raised_visited (record limit depth) limit (machine.visited + 1) node scope
  exact congrArg (fun run => let inner := recorded run (entering machine) _
    (inner.1, inner.2 ++ leaving inner.1)) same

theorem outcome_level (limit : Option Int) (depth : Nat) (node : Node) (scope : Nat)
    (machine : Machine) :
    outcome (eval limit (depth + 1) node scope) machine =
      outcome (visited (eval limit depth) limit (machine.visited + 1) node scope)
        (entering machine) :=
  rfl

/-- A recorded run is the run without the record. -/
def Erases (α : Type) (run : Raise Recording α) (plain : Raise (StateM Machine) α) : Prop :=
  ∀ machine past, (recorded run machine past).1 = outcome plain machine

theorem erases_congruence : Congruence Erases where
  pure value machine past := rfl
  onStore change machine past := rfl
  read machine past := rfl
  raise value error machine past := rfl
  stop stop machine past := rfl
  bind {α β run run' next next'} first second machine past := by
    have same := first machine past
    rw [recorded_bind, outcome_bind, ← same]
    rcases recorded run machine past with ⟨⟨⟨stop⟩ | ⟨error⟩ | ⟨value⟩, reached⟩, seen⟩
    · rfl
    · rfl
    · exact second value reached seen

theorem record_erases (limit : Option Int) (depth : Nat) (node : Node) (scope : Nat) :
    Erases Value (raised (record limit depth node scope)) (eval limit depth node scope) := by
  induction depth generalizing node scope with
  | zero =>
      intro machine past
      rw [record, raised_stop]
      rfl
  | succ depth ih =>
      intro machine past
      rw [recorded_level, outcome_level]
      exact visited_related erases_congruence ih limit (machine.visited + 1) node scope _ _

/-- What a run by exceptions would have come to by hand. -/
def byHand : Except Stop (Except Value Value) × Machine → Except Stop Value × Machine
  | (.ok (.ok value), machine) | (.ok (.error value), machine) => (.ok value, machine)
  | (.error stop, machine) => (.error stop, machine)

theorem byHand_outcome (run : Run Value) (machine : Machine) :
    byHand (outcome (raised run) machine) = run.run.run machine := by
  rw [outcome_raised]
  rcases run.run.run machine with ⟨⟨stop⟩ | ⟨value⟩, reached⟩
  · rfl
  · cases error : value.isError <;> simp [byHand, error]

theorem byHand_recorded (run : ExceptT Stop Recording Value) (machine : Machine)
    (past : List Event) :
    byHand (recorded (raised run) machine past).1 = ((run.run.run machine).run past).1 := by
  rw [recorded_raised]
  rcases (run.run.run machine).run past with ⟨⟨⟨stop⟩ | ⟨value⟩, reached⟩, seen⟩
  · rfl
  · cases error : value.isError <;> simp [byHand, error]

theorem recorded_raised_events (run : ExceptT Stop Recording Value) (machine : Machine)
    (past : List Event) :
    (recorded (raised run) machine past).2 = ((run.run.run machine).run past).2 := by
  rw [recorded_raised]
  rcases (run.run.run machine).run past with ⟨⟨⟨stop⟩ | ⟨value⟩, reached⟩, seen⟩ <;> rfl

end Raising

/-- Keeping a record changes nothing else. -/
theorem record_eval (limit : Option Int) (depth : Nat) (node : Node) (scope : Nat)
    (machine : Machine) (past : List Event) :
    (((record limit depth node scope).run.run machine).run past).1 =
      (eval limit depth node scope).run.run machine := by
  rw [← Raising.byHand_recorded, ← Raising.byHand_outcome, Raising.raised_eval]
  exact congrArg Raising.byHand (Raising.record_erases limit depth node scope machine past)

end MonkeyLang.Evaluation
