import MonkeyLang.Session

/-!
How a session goes through its queue. A run whose evaluations are noted is the run itself
(`runAllBy_noted`), and it evaluates programs of the queue in turn, each once, in the store that the
one before has left (`drained`).
-/

namespace MonkeyLang

theorem Effect.print_empty {σ α : Type} (effect : Effect σ α) : effect.print "" = effect := by
  rw [Effect.print, String.empty_append]

namespace Session

open Evaluation (Outcome)

/-- An evaluation that a run asks for. -/
structure Call where
  line : Option Int
  program : Node
  limit : Option Int
  store : Store

def Call.outcome (call : Call) : Outcome :=
  Evaluation.evaluate call.limit call.program scope call.store

/-- What a program comes to where the session has got. -/
abbrev outcome (session : Session) (limit : Option Int) (program : Node) : Outcome :=
  Evaluation.evaluate limit program scope session.store

/-- `runAll` with the evaluator left open. -/
def runAllBy {m : Type → Type} [Monad m] (evaluator : Call → m Outcome) (session : Session) :
    List (Option Int × Node) → m (Effect Session Unit)
  | [] => pure (.done { session with queue := [] } ())
  | (line, program) :: rest =>
    match session.limit with
    | .error fault => pure ⟨{ session with queue := rest }, "", .error fault⟩
    | .ok limit => do
      let outcome ← evaluator ⟨line, program, limit, session.store⟩
      let session := { session with store := outcome.store, queue := rest }
      match outcome.result with
      | .error fault => pure ⟨session, "", .error fault⟩
      | .ok (.error cause _) =>
        let reported := session.reporter.report (.plain cause.message false) line session
        match reported.answer with
        | .error fault => pure ⟨reported.state, reported.printed, .error fault⟩
        | .ok _ => do
          let later ← runAllBy evaluator reported.state rest
          return later.print reported.printed
      | .ok value =>
        if endsInBinding program then runAllBy evaluator session rest
        else runAllBy evaluator { session with results := session.results ++ [value] } rest

/-- Evaluates and takes a note of it. -/
def noted (call : Call) : StateM (List Call) Outcome := do
  modify (· ++ [call])
  return call.outcome

/-- The evaluations of a run, in their order. -/
def calls (session : Session) : List Call :=
  ((runAllBy noted session session.queue).run []).2

theorem noted_bind {α : Type} (call : Call) (next : Outcome → StateM (List Call) α)
    (past : List Call) :
    (noted call >>= next).run past = (next call.outcome).run (past ++ [call]) :=
  rfl

/-- Taking notes changes nothing. -/
theorem runAllBy_noted (session : Session) (queue : List (Option Int × Node)) (past : List Call) :
    ((runAllBy noted session queue).run past).1 = session.runAll queue := by
  induction queue generalizing session past with
  | nil => rfl
  | cons entry rest ih =>
      obtain ⟨line, program⟩ := entry
      unfold runAllBy runAll
      cases session.limit with
      | error fault => rfl
      | ok limit =>
          simp only [noted_bind, Call.outcome]
          generalize Evaluation.evaluate limit program scope session.store = outcome
          obtain ⟨result, visited, store⟩ := outcome
          rcases result with fault | value
          · rfl
          · cases value with
            | error cause tag =>
                simp only [Reporter.report, Effect.andThen]
                cases session.reporter.fatal with
                | true => rfl
                | false => exact congrArg (Effect.print _) (ih _ _)
            | integer | boolean | null | returned | function =>
                dsimp only
                split
                · exact ih _ _
                · exact ih _ _

/-- The evaluations of programs one after the other, each in the store that the one before has left. -/
def inTurn (limit : Option Int) : Store → List (Option Int × Node) → List Call
  | _, [] => []
  | store, (line, program) :: rest =>
    let call : Call := ⟨line, program, limit, store⟩
    call :: inTurn limit call.outcome.store rest

/-- What is printed of an outcome: a report if it is an error. -/
def reported (reporter : Reporter) (line : Option Int) (outcome : Outcome) : String :=
  match outcome.result with
  | .ok (.error cause _) => reporter.format (.plain cause.message false) line ++ "\n"
  | _ => ""

/-- What is kept of an outcome: its value, unless the program is one whose value is not shown. -/
def kept (silent : Bool) (outcome : Outcome) : List Value :=
  match outcome.result with
  | .error _ | .ok (.error ..) => []
  | .ok value => if silent then [] else [value]

/-- The session after the evaluation of a program, with the programs that are left. -/
def advance (session : Session) (limit : Option Int) (program : Node)
    (rest : List (Option Int × Node)) : Session :=
  { session with
    store := (session.outcome limit program).store
    queue := rest
    results := session.results ++ kept (endsInBinding program) (session.outcome limit program) }

section

variable {session : Session} {limit : Option Int} (usable : session.limit = .ok limit)
  {line : Option Int} {program : Node} {rest : List (Option Int × Node)}
include usable

theorem runAllBy_faulted {fault : Fault}
    (faulted : (session.outcome limit program).result = .error fault) (past : List Call) :
    (runAllBy noted session ((line, program) :: rest)).run past =
      (⟨session.advance limit program rest, "", .error fault⟩,
        past ++ [⟨line, program, limit, session.store⟩]) := by
  unfold runAllBy
  simp only [usable, noted_bind, Call.outcome, faulted, advance, kept, List.append_nil]
  rfl

theorem runAllBy_fatal {value : Value} (failed : (session.outcome limit program).result = .ok value)
    (fatal : value.isError = true ∧ session.reporter.fatal = true) (past : List Call) :
    (runAllBy noted session ((line, program) :: rest)).run past =
      (⟨session.advance limit program rest,
          reported session.reporter line (session.outcome limit program), .error (.exit "1")⟩,
        past ++ [⟨line, program, limit, session.store⟩]) := by
  obtain ⟨error, fatal⟩ := fatal
  unfold runAllBy
  cases value with
  | error cause tag =>
      simp only [usable, noted_bind, Call.outcome, failed, advance, kept, reported, Reporter.report,
        fatal, List.append_nil]
      rfl
  | integer | boolean | null | returned | function => cases error

theorem runAllBy_onward {value : Value} (fine : (session.outcome limit program).result = .ok value)
    (quiet : value.isError = true → session.reporter.fatal = false) (past : List Call) :
    (runAllBy noted session ((line, program) :: rest)).run past =
      let later := (runAllBy noted (session.advance limit program rest) rest).run
        (past ++ [⟨line, program, limit, session.store⟩])
      (later.1.print (reported session.reporter line (session.outcome limit program)),
        later.2) := by
  conv => lhs; unfold runAllBy
  simp only [usable, noted_bind, Call.outcome, fine, advance, kept, reported]
  cases value with
  | error cause tag =>
      simp only [Reporter.report, quiet rfl, List.append_nil]
      rfl
  | integer | boolean | null | returned | function =>
      cases endsInBinding program with
      | true =>
          simp only [if_true, Effect.print_empty, List.append_nil]
          rfl
      | false =>
          simp only [Bool.false_eq_true, if_false, Effect.print_empty]
          rfl

end

/-- What has come of some programs: what they left in store, what was printed of them and which values
were kept. -/
structure Account where
  store : Store
  reports : String
  values : List Value

namespace Account

def add (reporter : Reporter) (account : Account) (line : Option Int) (silent : Bool)
    (outcome : Outcome) : Account :=
  ⟨outcome.store, account.reports ++ reported reporter line outcome,
    account.values ++ kept silent outcome⟩

def evaluate (reporter : Reporter) (limit : Option Int) (account : Account)
    (entry : Option Int × Node) : Account :=
  account.add reporter entry.1 (endsInBinding entry.2)
    (Evaluation.evaluate limit entry.2 scope account.store)

end Account

/-- A session's account, where some text was printed before and some values were taken out. -/
def account (session : Session) (printed : String) (taken : List Value) : Account :=
  ⟨session.store, printed, taken ++ session.results⟩

/-- How a run goes through a queue: it evaluates a first part of it, which is all of it unless the last
evaluation ends in a fault. -/
structure Drained (limit : Option Int) (session : Session) (queue : List (Option Int × Node))
    (effect : Effect Session Unit) (evaluated : List (Option Int × Node)) : Prop where
  queue : queue = evaluated ++ effect.state.queue
  same : effect.state.reporter = session.reporter ∧ effect.state.limit = session.limit
  account (printed : String) (taken : List Value) :
    effect.state.account (printed ++ effect.printed) taken =
      evaluated.foldl (Account.evaluate session.reporter limit) (session.account printed taken)
  ended :
    (effect.answer = .ok () ∧ effect.state.queue = []) ∨
      ∃ fault call, effect.answer = .error fault ∧
        (inTurn limit session.store evaluated).getLast? = some call ∧
        call.outcome.result = .error fault

section

variable {session : Session} {limit : Option Int} {line : Option Int} {program : Node}
  {rest : List (Option Int × Node)}

theorem account_advance (line : Option Int) (printed : String) (taken : List Value) :
    (session.advance limit program rest).account
        (printed ++ reported session.reporter line (session.outcome limit program)) taken =
      Account.evaluate session.reporter limit (session.account printed taken) (line, program) := by
  simp only [account, advance, Account.evaluate, Account.add, List.append_assoc]

theorem drained_nil : Drained limit session [] (session.runAll []) [] where
  queue := rfl
  same := ⟨rfl, rfl⟩
  account printed taken := by
    simp only [runAll, Effect.done, String.append_empty]
    rfl
  ended := .inl ⟨rfl, rfl⟩

theorem drained_faulted {fault : Fault}
    (faulted : (session.outcome limit program).result = .error fault) :
    Drained limit session ((line, program) :: rest)
      ⟨session.advance limit program rest, "", .error fault⟩ [(line, program)] where
  queue := rfl
  same := ⟨rfl, rfl⟩
  account printed taken := by
    have silent : reported session.reporter line (session.outcome limit program) = "" := by
      rw [reported, faulted]
    have added := @account_advance session limit program rest line printed taken
    rw [silent] at added
    exact added
  ended := .inr ⟨fault, _, rfl, rfl, faulted⟩

theorem Drained.onward {effect : Effect Session Unit} {evaluated : List (Option Int × Node)}
    (later : Drained limit (session.advance limit program rest) rest effect evaluated) :
    Drained limit session ((line, program) :: rest)
      (effect.print (reported session.reporter line (session.outcome limit program)))
      ((line, program) :: evaluated) where
  queue := congrArg ((line, program) :: ·) later.queue
  same := later.same
  account printed taken := by
    have account := later.account
      (printed ++ reported session.reporter line (session.outcome limit program)) taken
    rw [account_advance, String.append_assoc] at account
    exact account
  ended := by
    rcases later.ended with ⟨answer, empty⟩ | ⟨fault, call, answer, last, faulted⟩
    · exact .inl ⟨answer, empty⟩
    · refine .inr ⟨fault, call, answer, ?_, faulted⟩
      change (_ :: inTurn limit (session.advance limit program rest).store evaluated).getLast? = _
      rw [List.getLast?_cons, last]
      rfl

end

/-- A run evaluates programs of its queue in turn, each once. -/
theorem drained {session : Session} {limit : Option Int} (usable : session.limit = .ok limit)
    (quiet : session.reporter.fatal = false) (queue : List (Option Int × Node))
    (past : List Call) :
    ∃ evaluated,
      ((runAllBy noted session queue).run past).2 =
          past ++ inTurn limit session.store evaluated ∧
        Drained limit session queue (session.runAll queue) evaluated := by
  induction queue generalizing session past with
  | nil => exact ⟨[], (List.append_nil past).symm, drained_nil⟩
  | cons entry rest ih =>
      obtain ⟨line, program⟩ := entry
      rw [← runAllBy_noted session _ past]
      rcases result : (session.outcome limit program).result with fault | value
      · rw [runAllBy_faulted usable result past]
        exact ⟨[(line, program)], rfl, drained_faulted result⟩
      · rw [runAllBy_onward usable result (fun _ => quiet) past]
        have usable' : (session.advance limit program rest).limit = .ok limit := usable
        obtain ⟨evaluated, log, later⟩ :=
          ih usable' quiet (past ++ [⟨line, program, limit, session.store⟩])
        refine ⟨(line, program) :: evaluated, ?_, ?_⟩
        · rw [log, List.append_assoc]
          rfl
        · dsimp only
          rw [runAllBy_noted]
          exact later.onward

end Session

end MonkeyLang
