import MonkeyLang.Proofs.Shell.Continuation

/-!
The numbers of lines. Where reports name no path they name no line either, so what comes of a program
does not depend on the line it was given on.
-/

namespace MonkeyLang

namespace Effect

variable {σ τ α β : Type}

/-- What comes after an action may be looked at in another place. -/
theorem within_andThen (first : Effect σ α) {next : σ → α → Effect σ β} {place : σ → τ}
    (next' : τ → α → Effect τ β)
    (same : ∀ state answer, (next state answer).within place = next' (place state) answer) :
    (first.andThen next).within place = (first.within place).andThen next' := by
  obtain ⟨state, printed, answer⟩ := first
  cases answer with
  | error fault => rfl
  | ok value => exact congrArg (Effect.print printed) (same state value)

end Effect

namespace Reporter

theorem guard_within {σ τ : Type} (reporter : Reporter) (action : Effect σ Unit) (place : σ → τ) :
    (reporter.guard action).within place = reporter.guard (action.within place) := by
  obtain ⟨state, printed, answer⟩ := action
  cases answer with
  | ok _ => rfl
  | error fault =>
      have settled : (reporter.settle fault state).within place =
          reporter.settle fault (place state) := by
        obtain ⟨fatal, path⟩ := reporter
        cases fault <;> cases fatal <;> rfl
      exact congrArg (Effect.print printed) settled

theorem format_pathless {reporter : Reporter} (pathless : reporter.path = none) (problem : Problem)
    (line : Option Int) : reporter.format problem line = reporter.format problem none := by
  unfold format place
  rw [pathless]

end Reporter

namespace Session

/-- A program that waits, without the number of its line. -/
def forget (entry : Option Int × Node) : Option Int × Node := (none, entry.2)

def unnumbered (session : Session) : Session := { session with queue := session.queue.map forget }

theorem runAll_unnumbered {session : Session} (pathless : session.reporter.path = none)
    (queue : List (Option Int × Node)) :
    (session.runAll queue).within unnumbered = session.unnumbered.runAll (queue.map forget) := by
  induction queue generalizing session with
  | nil => rfl
  | cons entry rest ih =>
      obtain ⟨line, program⟩ := entry
      rw [List.map_cons]
      have same : session.unnumbered.limit = session.limit := rfl
      simp only [runAll, forget, same]
      cases session.limit with
      | error fault => rfl
      | ok limit =>
          have store : session.unnumbered.store = session.store := rfl
          simp only [store]
          generalize Evaluation.evaluate limit program scope session.store = outcome
          obtain ⟨result, visited, store'⟩ := outcome
          rcases result with fault | value
          · rfl
          · cases value with
            | error cause tag =>
                have written := Reporter.format_pathless pathless (.plain cause.message false) line
                have reporter : session.unnumbered.reporter = session.reporter := rfl
                simp only [Reporter.report, Effect.andThen, reporter, written]
                cases session.reporter.fatal with
                | true => rfl
                | false =>
                    have later :=
                      @ih ⟨session.reporter, .ok limit, store', rest, session.results⟩ pathless
                    exact congrArg (Effect.print _) later
            | integer | boolean | null | returned | function =>
                dsimp only
                cases endsInBinding program with
                | true => exact ih pathless
                | false => exact ih pathless

theorem showAll_unnumbered (session : Session) (values : List Value) :
    (session.showAll values).within unnumbered = session.unnumbered.showAll values := by
  induction values with
  | nil => rfl
  | cons value rest ih =>
      unfold showAll
      split
      · exact congrArg (Effect.print _) ih
      · rfl

theorem showResults_unnumbered (session : Session) :
    session.showResults.within unnumbered = session.unnumbered.showResults :=
  showAll_unnumbered session session.results

/-- A run forgets the numbers of lines as its session does. -/
theorem run_unnumbered {session : Session} (pathless : session.reporter.path = none) :
    session.run.within unnumbered = session.unnumbered.run :=
  runAll_unnumbered pathless session.queue

theorem load_unnumbered (session : Session) (entry : Option Int × Node) :
    (session.load entry).unnumbered = session.unnumbered.load (forget entry) := by
  unfold unnumbered load
  rw [List.map_append]
  rfl

theorem perform_unnumbered {session : Session} (pathless : session.reporter.path = none)
    (entry : Option Int × Node) :
    (session.perform entry).within unnumbered = session.unnumbered.perform (forget entry) := by
  have pathless' : (session.load entry).reporter.path = none := pathless
  calc
    (session.perform entry).within unnumbered =
        ((session.load entry).run.within unnumbered).andThen fun session _ =>
          session.showResults :=
      Effect.within_andThen _ _ fun session _ => showResults_unnumbered session
    _ = session.unnumbered.perform (forget entry) := by
      rw [run_unnumbered pathless', load_unnumbered]
      rfl

end Session

namespace Shell

/-- A shell that has forgotten the numbers of its lines. -/
def unnumbered (shell : Shell) : Shell :=
  { shell with session := shell.session.unnumbered, lineNumber := 0 }

variable {shell shell' : Shell} {source source' : String}

theorem perform_around (pathless : shell.session.reporter.path = none) (entry : Option Int × Node) :
    ((shell.session.perform entry).within shell.around).within unnumbered =
      (shell.unnumbered.session.perform (Session.forget entry)).within shell.unnumbered.around :=
  congrArg (fun effect : Effect Session Unit => effect.within shell.unnumbered.around)
    (Session.perform_unnumbered pathless entry)

/-- What comes of a source in a shell depends on its tokens only. -/
theorem submit_unnumbered (same : shell.unnumbered = shell'.unnumbered)
    (pathless : shell.session.reporter.path = none)
    (tokens : Token.scan source.toList = Token.scan source'.toList) :
    (shell.session.reporter.guard (shell.submit source)).within unnumbered =
      (shell'.session.reporter.guard (shell'.submit source')).within unnumbered := by
  have parsed : Parsed.ofText source = Parsed.ofText source' := by
    unfold Parsed.ofText Grammar.readText
    rw [tokens]
  have reporter : shell.session.reporter = shell'.session.reporter :=
    congrArg (fun shell => shell.session.reporter) same
  rw [Reporter.guard_within, Reporter.guard_within, ← reporter]
  cases clean : (Parsed.ofText source).mistakes.isEmpty with
  | false =>
      rw [submit_rejected clean, submit_rejected (parsed ▸ clean), ← parsed, Effect.within,
        Effect.within, same]
      rfl
  | true =>
      rw [submit_accepted clean, submit_accepted (parsed ▸ clean), ← parsed, perform_around pathless,
        perform_around (reporter ▸ pathless), same]
      rfl

end Shell

end MonkeyLang
