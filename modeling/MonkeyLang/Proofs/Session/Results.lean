import MonkeyLang.Proofs.Session.Running

/-!
Which values a session keeps. Whether the value of a program is shown is decided by its last statement,
while the value comes from the statement that was executed last. The two differ where a program is left
early in front of a binding (`results_of_run`).
-/

namespace MonkeyLang

namespace Evaluation

section

variable (sub : Evaluator Run)

/-- `evalProgram` with a note of the statement that its value comes from. -/
def evalProgramFrom (scope : Nat) (last : Option Node × Value) :
    List Node → Run (Option Node × Value)
  | [] => pure last
  | node :: rest => do
    let value ← sub node scope
    match value with
    | .returned inner _ => pure (some node, inner)
    | .error .. => pure (some node, value)
    | _ => evalProgramFrom scope (some node, value) rest

end

/-- Evaluates a node, with a note of the statement of a program that its value comes from. -/
def evalFrom (limit : Option Int) (scope : Nat) : Nat → Node → Run (Option Node × Value)
  | depth + 1, .program statements => do
    let count ← visit
    match exceeded? limit count with
    | some most => do return (none, ← fail (.stepLimit most))
    | none => evalProgramFrom (eval limit depth) scope (none, .null) statements
  | depth, node => do return (none, ← eval limit depth node scope)

theorem snd_evalProgramFrom (sub : Evaluator Run) (scope : Nat) (last : Option Node × Value)
    (statements : List Node) :
    Prod.snd <$> evalProgramFrom sub scope last statements =
      evalProgram sub scope last.2 statements := by
  induction statements generalizing last with
  | nil => simp [evalProgramFrom, evalProgram]
  | cons node rest ih =>
      simp only [evalProgramFrom, evalProgram, map_bind]
      congr 1
      funext value
      cases value with
      | returned inner tag => simp
      | error cause tag => simp
      | integer | boolean | null | function => exact ih _

/-- Taking notes changes nothing. -/
theorem snd_evalFrom (limit : Option Int) (scope depth : Nat) (node : Node) :
    Prod.snd <$> evalFrom limit scope depth node = eval limit depth node scope := by
  unfold evalFrom
  split
  · simp only [eval, map_bind]
    congr 1
    funext count
    cases exceeded? limit count with
    | some most => simp
    | none => exact snd_evalProgramFrom _ _ _ _
  · simp

theorem run_bind_ok {α β : Type} {run : Run α} {next : α → Run β} {machine last : Machine}
    {result : β} (ends : (run >>= next).run.run machine = (.ok result, last)) :
    ∃ value reached, run.run.run machine = (.ok value, reached) ∧
      (next value).run.run reached = (.ok result, last) := by
  rw [ExceptT.run_bind, StateT.run_bind] at ends
  rcases shape : run.run.run machine with ⟨stop | value, reached⟩
  · rw [shape] at ends
    cases ends
  · rw [shape] at ends
    exact ⟨value, reached, rfl, ends⟩

theorem fail_isError {cause : Cause} {machine last : Machine} {value : Value}
    (ends : (fail cause : Run Value).run.run machine = (.ok value, last)) : value.isError = true := by
  unfold fail at ends
  split at ends
  · obtain ⟨tag, reached, -, ends⟩ := run_bind_ok ends
    cases ends
    rfl
  · cases ends

/-- A binding has no value of its own. -/
theorem eval_binding {limit : Option Int} {depth scope : Nat} {node : Node} {machine last : Machine}
    {value : Value} (binds : node.isBinding = true)
    (ends : (eval limit depth node scope).run.run machine = (.ok value, last)) :
    value.isError = true ∨ value = .null := by
  cases node <;> cases binds
  cases depth with
  | zero => cases ends
  | succ depth =>
      obtain ⟨count, reached, -, ends⟩ := run_bind_ok ends
      split at ends
      · exact .inl (fail_isError ends)
      · obtain ⟨result, after, -, ends⟩ := run_bind_ok ends
        split at ends
        · cases ends
          exact .inl ‹_›
        · obtain ⟨_, _, -, ends⟩ := run_bind_ok ends
          cases ends
          exact .inr rfl

/-- The value of some statements comes from one of them. If that is a binding it is the last one. -/
def ComesFrom (statements : List Node) (producer : Option Node) (value : Value) : Prop :=
  ∃ before node after, statements = before ++ node :: after ∧ producer = some node ∧
    (node.isBinding = true → after = [] ∧ value = .null)

theorem evalProgramFrom_cases {sub : Evaluator Run}
    (bindings : ∀ {node scope machine value last}, node.isBinding = true →
      (sub node scope).run.run machine = (.ok value, last) → value.isError = true ∨ value = .null)
    {scope : Nat} {earlier : Option Node × Value} {statements : List Node} {machine last : Machine}
    {producer : Option Node} {value : Value}
    (ends : (evalProgramFrom sub scope earlier statements).run.run machine =
      (.ok (producer, value), last)) :
    value.isError = true ∨ (statements = [] ∧ earlier = (producer, value)) ∨
      ComesFrom statements producer value := by
  induction statements generalizing earlier machine with
  | nil =>
      cases ends
      exact .inr (.inl ⟨rfl, rfl⟩)
  | cons node rest ih =>
      obtain ⟨first, reached, given, ends⟩ := run_bind_ok ends
      have binding (binds : node.isBinding = true) := bindings binds given
      have onward (ends : (evalProgramFrom sub scope (some node, first) rest).run.run reached =
          (.ok (producer, value), last)) (fine : first.isError = false) :
          value.isError = true ∨ (node :: rest = [] ∧ earlier = (producer, value)) ∨
            ComesFrom (node :: rest) producer value := by
        rcases ih ends with error | ⟨rfl, same⟩ | ⟨before, other, after, rfl, named, final⟩
        · exact .inl error
        · cases same
          refine .inr (.inr ⟨[], node, [], rfl, rfl, fun binds => ⟨rfl, ?_⟩⟩)
          exact (binding binds).resolve_left (by simp [fine])
        · exact .inr (.inr ⟨node :: before, other, after, rfl, named, final⟩)
      cases first with
      | returned inner tag =>
          cases ends
          refine .inr (.inr ⟨[], node, rest, rfl, rfl, fun binds => ?_⟩)
          rcases binding binds with error | null
          · cases error
          · cases null
      | error cause tag =>
          cases ends
          exact .inl rfl
      | integer | boolean | null | function => exact onward ends rfl

end Evaluation

namespace Session

open Evaluation

/-- The statement that the value of a call comes from. -/
def Call.producer (call : Call) : Option Node :=
  ((evalFrom call.limit scope Evaluation.depthLimit call.program).run.run ⟨call.store, 0⟩).1.toOption
    |>.bind Prod.fst

/-- What a run keeps of a call. -/
def Call.shown (call : Call) : List Value := kept (endsInBinding call.program) call.outcome

/-- A program was left by a statement in front of others, the last of which is a binding. -/
def Call.LeavesEarly (call : Call) : Prop :=
  ∃ before node between last, call.program = .program (before ++ node :: (between ++ [last])) ∧
    call.producer = some node ∧ node.isBinding = false ∧ last.isBinding = true

theorem evalFrom_cases {limit : Option Int} {depth : Nat} {program : Node}
    {machine last : Machine} {producer : Option Node} {value : Value}
    (ends : (evalFrom limit scope depth program).run.run machine = (.ok (producer, value), last)) :
    value.isError = true ∨ (endsInBinding program = false ∧ producer = none) ∨
      ∃ statements, program = .program statements ∧ ComesFrom statements producer value := by
  unfold evalFrom at ends
  split at ends
  · obtain ⟨count, reached, -, ends⟩ := run_bind_ok ends
    split at ends
    · obtain ⟨error, after, failed, ends⟩ := run_bind_ok ends
      cases ends
      exact .inl (fail_isError failed)
    · rcases evalProgramFrom_cases eval_binding ends with error | ⟨rfl, same⟩ | comes
      · exact .inl error
      · cases same
        exact .inr (.inl ⟨rfl, rfl⟩)
      · exact .inr (.inr ⟨_, rfl, comes⟩)
  · rename_i other
    obtain ⟨result, after, given, ends⟩ := run_bind_ok ends
    cases ends
    refine .inr (.inl ⟨?_, rfl⟩)
    cases program with
    | program statements =>
        cases depth with
        | zero => cases given
        | succ depth => exact absurd rfl (other depth statements rfl)
    | _ => rfl

theorem Call.run_evalFrom {call : Call} {value : Value} (ends : call.outcome.result = .ok value)
    (fine : value.isError = false) :
    ∃ last, (evalFrom call.limit scope depthLimit call.program).run.run ⟨call.store, 0⟩ =
      (.ok (call.producer, value), last) := by
  unfold outcome evaluate evaluateWithin at ends
  rw [← snd_evalFrom, ExceptT.run_map, StateT.run_map] at ends
  unfold producer
  generalize (evalFrom call.limit scope depthLimit call.program).run.run ⟨call.store, 0⟩ = run
    at ends ⊢
  rcases run with ⟨(_ | _) | ⟨from?, result⟩, last⟩
  · cases ends
    cases fine
  · cases ends
  · cases ends
    exact ⟨last, rfl⟩

/-- A value that is no error comes from no statement only if there is none. -/
theorem Call.producer_cases {call : Call} {value : Value} (ends : call.outcome.result = .ok value)
    (fine : value.isError = false) :
    (endsInBinding call.program = false ∧ call.producer = none) ∨
      ∃ statements, call.program = .program statements ∧
        ComesFrom statements call.producer value := by
  obtain ⟨last, run⟩ := run_evalFrom ends fine
  exact (evalFrom_cases run).resolve_left (by simp [fine])

section

variable {call : Call} {value : Value}

theorem Call.shown_error (ends : call.outcome.result = .ok value) (error : value.isError = true) :
    call.shown = [] := by
  rw [shown, kept, ends]
  cases value <;> cases error
  rfl

theorem Call.shown_fine (ends : call.outcome.result = .ok value) (fine : value.isError = false) :
    call.shown = if endsInBinding call.program then [] else [value] := by
  rw [shown, kept, ends]
  cases value with
  | error => cases fine
  | integer | boolean | null | returned | function => rfl

theorem endsInBinding_append (before : List Node) (last : Node) :
    endsInBinding (.program (before ++ [last])) = last.isBinding := by
  rw [endsInBinding, List.getLast?_concat]
  rfl

theorem Call.LeavesEarly.endsInBinding (leaves : call.LeavesEarly) :
    endsInBinding call.program = true := by
  obtain ⟨before, node, between, last, program, -, -, binds⟩ := leaves
  rw [program, ← List.cons_append, ← List.append_assoc, endsInBinding_append, binds]

/-- The last statement is a binding if the value comes from it, or from another one in front of it. -/
theorem Call.endsInBinding_iff (ends : call.outcome.result = .ok value)
    (fine : value.isError = false) :
    endsInBinding call.program = true ↔
      (value = .null ∧ call.producer.any Node.isBinding = true) ∨ call.LeavesEarly := by
  rcases call.producer_cases ends fine with ⟨plain, unnamed⟩ |
    ⟨_, program, before, node, after, rfl, named, final⟩
  · rw [unnamed]
    constructor
    · intro binds
      rw [plain] at binds
      cases binds
    · rintro (⟨-, ⟨⟩⟩ | leaves)
      exact leaves.endsInBinding
  · cases binding : node.isBinding with
    | true =>
        obtain ⟨rfl, null⟩ := final binding
        rw [program, endsInBinding_append, named, Option.any_some, binding]
        exact ⟨fun _ => .inl ⟨null, rfl⟩, fun _ => rfl⟩
    | false =>
        constructor
        · intro binds
          rcases List.eq_nil_or_concat after with rfl | ⟨between, last, rfl⟩
          · rw [program, endsInBinding_append, binding] at binds
            cases binds
          · rw [List.concat_eq_append] at program
            refine .inr ⟨before, node, between, last, program, named, binding, ?_⟩
            rwa [program, ← List.cons_append, ← List.append_assoc, endsInBinding_append] at binds
        · rintro (⟨-, binds⟩ | leaves)
          · rw [named, Option.any_some, binding] at binds
            cases binds
          · exact leaves.endsInBinding

end

/-- A run keeps what is shown of its calls, in their order. -/
theorem results_runAll (session : Session) (queue : List (Option Int × Node)) (past : List Call) :
    ∃ calls, ((runAllBy noted session queue).run past).2 = past ++ calls ∧
      (session.runAll queue).state.results = session.results ++ calls.flatMap Call.shown := by
  induction queue generalizing session past with
  | nil => exact ⟨[], (List.append_nil past).symm, (List.append_nil _).symm⟩
  | cons entry rest ih =>
      obtain ⟨line, program⟩ := entry
      rw [← runAllBy_noted session _ past]
      cases usable : session.limit with
      | error fault =>
          unfold runAllBy
          rw [usable]
          exact ⟨[], (List.append_nil past).symm, (List.append_nil _).symm⟩
      | ok limit =>
          let call : Call := ⟨line, program, limit, session.store⟩
          have advanced : (session.advance limit program rest).results =
              session.results ++ [call].flatMap Call.shown := by
            rw [List.flatMap_singleton]
            rfl
          rcases result : (session.outcome limit program).result with fault | value
          · rw [runAllBy_faulted usable result past]
            exact ⟨[call], rfl, advanced⟩
          · by_cases stops : value.isError = true ∧ session.reporter.fatal = true
            · rw [runAllBy_fatal usable result stops past]
              exact ⟨[call], rfl, advanced⟩
            · have quiet (error : value.isError = true) : session.reporter.fatal = false := by
                simpa [error] using stops
              obtain ⟨calls, log, later⟩ :=
                ih (session.advance limit program rest) (past ++ [call])
              rw [runAllBy_onward usable result quiet past]
              refine ⟨call :: calls, ?_, ?_⟩
              · rw [log, List.append_assoc]
                rfl
              · dsimp only [Effect.print]
                rw [runAllBy_noted, later, advanced, List.append_assoc, ← List.flatMap_append]
                rfl

/-- What a session keeps of the programs it runs. The value of a program that is no error is kept unless
the program ends in a binding. Then it is the null that this binding comes to, or the program was left
early in front of it, and the value of another statement is lost. -/
theorem results_of_run (session : Session) :
    session.run.state.results = session.results ++ session.calls.flatMap Call.shown ∧
    ∀ call : Call, ∀ value, call.outcome.result = .ok value →
      (call.shown = [] ∨ call.shown = [value]) ∧
      (call.shown = [] ↔ value.isError = true ∨
        (value = .null ∧ call.producer.any Node.isBinding = true) ∨ call.LeavesEarly) := by
  constructor
  · obtain ⟨calls, log, results⟩ := results_runAll session session.queue []
    rw [Session.calls, log]
    exact results
  · intro call value ends
    cases error : value.isError with
    | true =>
        have silent := Call.shown_error ends error
        exact ⟨.inl silent, fun _ => .inl rfl, fun _ => silent⟩
    | false =>
        have shown := Call.shown_fine ends error
        have binds := Call.endsInBinding_iff ends error
        cases silent : endsInBinding call.program with
        | true =>
            rw [silent, if_pos rfl] at shown
            exact ⟨.inl shown, fun _ => .inr (binds.mp silent), fun _ => shown⟩
        | false =>
            rw [silent, if_neg (by decide)] at shown
            refine ⟨.inr shown, fun empty => ?_, fun reasons => ?_⟩
            · rw [shown] at empty
              cases empty
            · rcases reasons with wrong | reasons
              · cases wrong
              · rw [binds.mpr reasons] at silent
                cases silent

/-- The second program is left inside its conditional. -/
theorem results_of_run_conditional :
    let session : Session :=
      { Session.start ⟨false, none⟩ (.ok none) with
        queue := [(none, (Parsed.ofText "let a = 4; a + 1").program),
          (none, (Parsed.ofText "if (a == 4) \x7b return a; \x7d let b = 1;").program)] }
    session.run.state.results.map Value.text = ["5"] ∧
      ∃ call ∈ session.calls, ∃ value, call.outcome.result = .ok value ∧ value.text = "4" ∧
        call.LeavesEarly := by
  intro session
  have given : (session.calls[1]?.map fun call => (call.shown.length,
      call.outcome.result.toOption.map fun value => (value.isError, value.kind, value.text))) =
        some (0, some (false, .integer, "4")) := by
    decide +kernel
  refine ⟨by decide +kernel, ?_⟩
  cases found : session.calls[1]? with
  | none =>
      rw [found] at given
      cases given
  | some call =>
      rw [found, Option.map_some, Option.some.injEq, Prod.mk.injEq, Option.map_eq_some_iff] at given
      obtain ⟨silent, value, given, facts⟩ := given
      rw [Prod.mk.injEq, Prod.mk.injEq] at facts
      obtain ⟨fine, kind, text⟩ := facts
      have ends : call.outcome.result = .ok value := by
        cases shape : call.outcome.result with
        | error fault =>
            rw [shape] at given
            cases given
        | ok other =>
            rw [shape] at given
            cases given
            rfl
      have reasons := ((results_of_run session).2 call value ends).2.mp
        (List.length_eq_zero_iff.mp silent)
      refine ⟨call, List.mem_of_getElem? found, value, ends, text, ?_⟩
      rcases reasons with error | ⟨rfl, -⟩ | leaves
      · rw [error] at fine
        cases fine
      · cases kind
      · exact leaves

/-- The value comes from a statement that is no binding and is lost, since a binding stands behind that
statement. -/
theorem returned_value_lost :
    ((Session.start ⟨false, none⟩ (.ok none)).add "return 5; let x = 1;" none).toOption.map
        (fun added => (added.1.run.answer.toOption, added.1.run.state.results.map Value.text,
          added.1.calls.map fun call =>
            (call.outcome.result.toOption.map Value.text, call.producer.map Node.isBinding))) =
      some (some (), [], [(some "5", some false)]) := by
  decide +kernel

end Session

end MonkeyLang
