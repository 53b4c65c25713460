import Mathlib.Data.List.Induction
import MonkeyLang.Interpretation
import MonkeyLang.Proofs.Session.Running

/-!
Sessions that are added to, run and taken from in any order. What comes of the programs that are
accepted does not depend on when they are run (`schedule_immaterial`).
-/

namespace MonkeyLang.Session

/-- What a session can be asked for. -/
inductive Request where
  | add (source : String) (line : Option Int)
  | run
  | pop

/-- A session with all that has come of it. -/
structure History where
  session : Session
  calls : List Call
  printed : String
  /-- The results that were taken out. -/
  taken : List Value
  /-- The faults in which runs ended. -/
  faults : List Fault

namespace History

def start (reporter : Reporter) (limit : Option Int) : History :=
  ⟨Session.start reporter (.ok limit), [], "", [], []⟩

def act (history : History) : Request → History
  | .add source line =>
    match history.session.add source line with
    | .ok (session, _) => { history with session := session }
    | .error _ => history
  | .run =>
    let effect := history.session.run
    { history with
      session := effect.state
      calls := history.calls ++ history.session.calls
      printed := history.printed ++ effect.printed
      faults :=
        match effect.answer with
        | .ok _ => history.faults
        | .error fault => history.faults ++ [fault] }
  | .pop =>
    let effect := history.session.pop
    { history with
      session := effect.state
      printed := history.printed ++ effect.printed
      taken := history.taken ++ effect.answer.toOption.toList }

def account (history : History) : Account := history.session.account history.printed history.taken

end History

def conduct (reporter : Reporter) (limit : Option Int) (requests : List Request) : History :=
  requests.foldl History.act (History.start reporter limit)

def Request.source? : Request → Option (String × Option Int)
  | add source line => some (source, line)
  | run | pop => none

/-- The sources that are given, each with the number of its line. -/
def sources (requests : List Request) : List (String × Option Int) :=
  requests.filterMap Request.source?

def accepted? (given : String × Option Int) : Option (Option Int × Node) :=
  (readProgram given.1).toOption.map (given.2, ·)

/-- The programs of the sources that are accepted. -/
def entries (given : List (String × Option Int)) : List (Option Int × Node) := given.filterMap accepted?

namespace Account

def fresh : Account := ⟨Store.empty.addScope none, "", []⟩

/-- An account with what interpreting a source comes to. A source that is not accepted adds
nothing. -/
def interpret (reporter : Reporter) (limit : Option Int) (account : Account)
    (given : String × Option Int) : Account :=
  match MonkeyLang.interpret limit given.1 scope account.store with
  | .error _ => account
  | .ok outcome =>
    account.add reporter given.2 (endsInBinding (Parsed.ofText given.1).program) outcome

end Account

/-- How far a session has got with the programs that were accepted: a first part of them was evaluated
in turn, each once and under the whole limit, and the others wait. -/
structure Reaches (reporter : Reporter) (limit : Option Int) (accepted : List (Option Int × Node))
    (history : History) (evaluated : List (Option Int × Node)) : Prop where
  queue : accepted = evaluated ++ history.session.queue
  calls : history.calls = inTurn limit Account.fresh.store evaluated
  account : history.account = evaluated.foldl (Account.evaluate reporter limit) Account.fresh
  same : history.session.reporter = reporter ∧ history.session.limit = .ok limit

theorem inTurn_append (reporter : Reporter) (limit : Option Int) (account : Account)
    (first second : List (Option Int × Node)) :
    inTurn limit account.store (first ++ second) =
      inTurn limit account.store first ++
        inTurn limit (first.foldl (Account.evaluate reporter limit) account).store second := by
  induction first generalizing account with
  | nil => rfl
  | cons entry rest ih =>
      have later := ih (account.evaluate reporter limit entry)
      exact congrArg (_ :: ·) later

/-- An evaluation in a list of them is that of its program. -/
theorem inTurn_entries (limit : Option Int) (store : Store) (given : List (Option Int × Node)) :
    (inTurn limit store given).map (fun call => (call.line, call.program)) = given := by
  induction given generalizing store with
  | nil => rfl
  | cons entry rest ih => exact congrArg (entry :: ·) (ih _)

/-- Interpreting a source is evaluating its program, if it has one. -/
theorem Account.interpret_eq (reporter : Reporter) (limit : Option Int) (account : Account)
    (given : String × Option Int) :
    account.interpret reporter limit given =
      (accepted? given).toList.foldl (Account.evaluate reporter limit) account := by
  unfold Account.interpret MonkeyLang.interpret accepted?
  rcases read : readProgram given.1 with fault | program
  · rfl
  · have same : (Parsed.ofText given.1).program = program := by
      unfold readProgram at read
      dsimp only at read
      split at read
      · exact Except.ok.inj read
      · cases read
    simp only [same]
    rfl

theorem interpret_all (reporter : Reporter) (limit : Option Int)
    (given : List (String × Option Int)) (account : Account) :
    given.foldl (Account.interpret reporter limit) account =
      (entries given).foldl (Account.evaluate reporter limit) account := by
  induction given generalizing account with
  | nil => rfl
  | cons first rest ih =>
      rw [List.foldl_cons, ih, Account.interpret_eq, entries, entries, List.filterMap_cons]
      cases accepted? first with
      | none => rfl
      | some entry => rfl

section

variable {reporter : Reporter} {limit : Option Int} {accepted evaluated : List (Option Int × Node)}
  {history : History}

theorem reaches_start (reporter : Reporter) (limit : Option Int) :
    Reaches reporter limit [] (.start reporter limit) [] :=
  ⟨rfl, rfl, rfl, rfl, rfl⟩

theorem Reaches.add (reaches : Reaches reporter limit accepted history evaluated) (source : String)
    (line : Option Int) :
    Reaches reporter limit (accepted ++ (accepted? (source, line)).toList)
      (history.act (.add source line)) evaluated := by
  unfold accepted?
  simp only [History.act, Session.add]
  rcases readProgram source with fault | program
  · rw [Except.toOption, Option.map_none, Option.toList_none, List.append_nil]
    exact reaches
  · refine ⟨?_, reaches.calls, reaches.account, reaches.same⟩
    rw [reaches.queue, List.append_assoc]
    rfl

theorem Reaches.pop (reaches : Reaches reporter limit accepted history evaluated) :
    Reaches reporter limit accepted (history.act .pop) evaluated := by
  have account := reaches.account
  unfold History.account Session.account at account
  cases results : history.session.results with
  | nil =>
      have still : history.act .pop = history := by
        simp only [History.act, Session.pop, results, String.append_empty, Except.toOption,
          Option.toList_none, List.append_nil]
      rw [still]
      exact reaches
  | cons value rest =>
      rw [results] at account
      refine ⟨?_, reaches.calls, ?_, ?_⟩
      · simp only [History.act, Session.pop, results]
        exact reaches.queue
      · simp only [History.act, History.account, Session.account, Session.pop, results, Effect.done,
          String.append_empty, Except.toOption, Option.toList_some, List.append_assoc,
          List.singleton_append]
        exact account
      · simp only [History.act, Session.pop, results]
        exact reaches.same

theorem Reaches.run (reaches : Reaches reporter limit accepted history evaluated)
    (quiet : reporter.fatal = false) :
    ∃ more, Reaches reporter limit accepted (history.act .run) (evaluated ++ more) ∧
      history.session.calls = inTurn limit history.session.store more ∧
      Drained limit history.session history.session.queue history.session.run more := by
  obtain ⟨reporter_eq, usable⟩ := reaches.same
  have quiet' : history.session.reporter.fatal = false := by rw [reporter_eq, quiet]
  obtain ⟨more, log, drained⟩ := drained usable quiet' history.session.queue []
  have store : history.session.store =
      (evaluated.foldl (Account.evaluate reporter limit) Account.fresh).store :=
    congrArg Account.store reaches.account
  refine ⟨more, ⟨?_, ?_, ?_, ?_⟩, log, drained⟩
  · calc
      accepted = evaluated ++ history.session.queue := reaches.queue
      _ = evaluated ++ (more ++ history.session.run.state.queue) := congrArg _ drained.queue
      _ = evaluated ++ more ++ (history.act .run).session.queue := (List.append_assoc ..).symm
  · calc
      history.calls ++ history.session.calls =
          inTurn limit Account.fresh.store evaluated ++ inTurn limit history.session.store more :=
        congr (congrArg _ reaches.calls) log
      _ = inTurn limit Account.fresh.store (evaluated ++ more) := by
        rw [store, ← inTurn_append]
  · calc
      (history.act .run).account =
          more.foldl (Account.evaluate history.session.reporter limit) history.account :=
        drained.account history.printed history.taken
      _ = (evaluated ++ more).foldl (Account.evaluate reporter limit) Account.fresh := by
        rw [List.foldl_append, ← reaches.account, reporter_eq]
  · exact ⟨drained.same.1.trans reporter_eq, drained.same.2.trans usable⟩

theorem Reaches.act (reaches : Reaches reporter limit accepted history evaluated)
    (quiet : reporter.fatal = false) (request : Request) :
    ∃ further, Reaches reporter limit (accepted ++ entries (sources [request]))
      (history.act request) further := by
  cases request with
  | add source line =>
      have one : entries (sources [.add source line]) = (accepted? (source, line)).toList := by
        change List.filterMap accepted? [(source, line)] = _
        rw [List.filterMap_cons]
        cases accepted? (source, line) <;> rfl
      rw [one]
      exact ⟨evaluated, reaches.add source line⟩
  | run =>
      obtain ⟨more, further, -, -⟩ := reaches.run quiet
      refine ⟨evaluated ++ more, ?_⟩
      change Reaches reporter limit (accepted ++ []) _ _
      rw [List.append_nil]
      exact further
  | pop =>
      refine ⟨evaluated, ?_⟩
      change Reaches reporter limit (accepted ++ []) _ _
      rw [List.append_nil]
      exact reaches.pop

theorem reaches_conduct (quiet : reporter.fatal = false) (limit : Option Int)
    (requests : List Request) :
    ∃ evaluated, Reaches reporter limit (entries (sources requests))
      (conduct reporter limit requests) evaluated := by
  induction requests using List.reverseRecOn with
  | nil => exact ⟨[], reaches_start reporter limit⟩
  | append_singleton earlier request ih =>
      obtain ⟨evaluated, reaches⟩ := ih
      have onward := reaches.act quiet request
      rw [entries, entries, ← List.filterMap_append, sources, sources, ← List.filterMap_append]
        at onward
      rw [conduct, List.foldl_append]
      exact onward

/-- A run that ends leaves nothing waiting. -/
theorem Reaches.ended (reaches : Reaches reporter limit accepted history evaluated)
    (quiet : reporter.fatal = false) (fine : history.session.run.answer = .ok ()) :
    (history.act .run).session.queue = [] := by
  obtain ⟨more, -, -, drained⟩ := reaches.run quiet
  rcases drained.ended with ⟨-, empty⟩ | ⟨fault, call, answer, -, -⟩
  · exact empty
  · rw [fine] at answer
    cases answer

/-- A run that ends in a fault leaves waiting what was accepted after the program with the fault. -/
theorem Reaches.broken (reaches : Reaches reporter limit accepted history evaluated)
    (quiet : reporter.fatal = false) {fault : Fault}
    (faulted : history.session.run.answer = .error fault) :
    ∃ earlier call,
      accepted = earlier ++ (call.line, call.program) :: (history.act .run).session.queue ∧
        (history.act .run).calls.getLast? = some call ∧ call.outcome.result = .error fault := by
  obtain ⟨more, further, log, drained⟩ := reaches.run quiet
  rcases drained.ended with ⟨answer, -⟩ | ⟨fault', call, answer, last, result⟩
  · rw [faulted] at answer
    cases answer
  · obtain rfl : fault = fault' := Except.error.inj (faulted.symm.trans answer)
    have last' : more.getLast? = some (call.line, call.program) := by
      rw [← inTurn_entries limit history.session.store more, List.getLast?_map, last]
      rfl
    obtain ⟨before, rfl⟩ := List.getLast?_eq_some_iff.mp last'
    refine ⟨evaluated ++ before, call, ?_, ?_, result⟩
    · rw [further.queue]
      simp only [List.append_assoc, List.singleton_append]
    · change (history.calls ++ history.session.calls).getLast? = some call
      rw [log, List.getLast?_append, last]
      rfl

end

theorem sources_run (requests : List Request) : sources (requests ++ [.run]) = sources requests := by
  rw [sources, List.filterMap_append]
  exact List.append_nil _

theorem conduct_run (reporter : Reporter) (limit : Option Int) (requests : List Request) :
    conduct reporter limit (requests ++ [.run]) = (conduct reporter limit requests).act .run := by
  rw [conduct, List.foldl_append]
  rfl

/-- A last run without a fault leaves the account of interpreting each source in turn. -/
theorem account_conduct {reporter : Reporter} (quiet : reporter.fatal = false) (limit : Option Int)
    (requests : List Request)
    (fine : (conduct reporter limit (requests ++ [.run])).faults = []) :
    (conduct reporter limit (requests ++ [.run])).session.queue = [] ∧
      (conduct reporter limit (requests ++ [.run])).account =
        (sources requests).foldl (Account.interpret reporter limit) Account.fresh := by
  have empty : (conduct reporter limit (requests ++ [.run])).session.queue = [] := by
    obtain ⟨evaluated, reaches⟩ := reaches_conduct quiet limit requests
    rw [conduct_run] at fine ⊢
    apply reaches.ended quiet
    rcases answer : (conduct reporter limit requests).session.run.answer with fault | _
    · simp only [History.act, answer, List.append_eq_nil_iff, List.cons_ne_self, and_false] at fine
    · rfl
  refine ⟨empty, ?_⟩
  obtain ⟨evaluated, reaches⟩ := reaches_conduct quiet limit (requests ++ [.run])
  have all : entries (sources requests) = evaluated := by
    rw [← sources_run, reaches.queue, empty, List.append_nil]
  rw [reaches.account, interpret_all, all]

-- A run that breaks off leaves the program behind the one that broke it off.
example :
    let requests : List Request :=
      [.add "let s = fn(x) \x7b x * x \x7d" none,
        .add "s(s(s(s(s(s(s(s(s(10000000000000000))))))))) / 0" none, .add "2" none, .run]
    (conduct ⟨false, none⟩ none requests).faults = [.unwritableInteger] ∧
      (conduct ⟨false, none⟩ none requests).session.queue.length = 1 := by
  decide +kernel

end MonkeyLang.Session
