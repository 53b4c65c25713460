import MonkeyLang.Proofs.Session.Running
import MonkeyLang.Proofs.Shell.Continuation

/-!
What holds of a shell between lines: nothing waits to be run or shown, and what is pending has brackets
open. No line can break this, not even one that ends in a fault (`settled_throughout`).
-/

namespace MonkeyLang

open Text (isBlank)

theorem Evaluation.fault_of_evaluate {limit : Option Int} {node : Node} {scope : Nat} {store : Store}
    {fault : Fault} (faulted : (evaluate limit node scope store).result = .error fault) :
    fault = .unwritableInteger := by
  unfold evaluate evaluateWithin at faulted
  split at faulted
  · cases faulted
  · cases faulted
  · exact (Except.error.inj faulted).symm

namespace Fault

/-- The faults that a line of input can meet. -/
inductive OfLine : Fault → Prop
  | problem (complaint : Problem) : OfLine (.problem complaint)
  | tooDeep : OfLine .tooDeep
  | unwritableInteger : OfLine .unwritableInteger

theorem ofLine_inspect {value : Value} {fault : Fault} (faulted : value.inspect = .error fault) :
    fault.OfLine := by
  unfold Value.inspect at faulted
  split at faulted
  · cases faulted
    exact .tooDeep
  · split at faulted
    · cases faulted
    · cases faulted
      exact .unwritableInteger

end Fault

/-- A reporter that ends nothing lets only the fault of an integer through. -/
theorem Reporter.guard_answer {σ : Type} {reporter : Reporter} (quiet : reporter.fatal = false)
    {action : Effect σ Unit} (expected : ∀ fault, action.answer = .error fault → fault.OfLine)
    {fault : Fault} (through : (reporter.guard action).answer = .error fault) :
    fault = .unwritableInteger := by
  unfold guard at through
  split at through
  · rename_i fine
    rw [fine] at through
    cases through
  · rename_i met faulted
    cases expected met faulted with
    | problem | tooDeep =>
        simp only [settle, report, quiet, Effect.print, Bool.false_eq_true, if_false] at through
        cases through
    | unwritableInteger =>
        simp only [settle, report, quiet, Effect.print, Effect.andThen, Bool.false_eq_true,
          if_false, Except.error.injEq] at through
        exact through.symm

namespace Session

variable {session : Session}

/-- The run of a single program. -/
theorem runAll_single {limit : Option Int} (usable : session.limit = .ok limit)
    (quiet : session.reporter.fatal = false) (line : Option Int) (program : Node) :
    session.runAll [(line, program)] =
      ⟨session.advance limit program [],
        reported session.reporter line (session.outcome limit program),
        (session.outcome limit program).result.map fun _ => ()⟩ := by
  rw [← runAllBy_noted session _ []]
  rcases result : (session.outcome limit program).result with fault | value
  · rw [runAllBy_faulted usable result, reported, result]
    rfl
  · rw [runAllBy_onward usable result fun _ => quiet]
    change Effect.mk _ (_ ++ "") _ = _
    rw [String.append_empty]
    rfl

theorem kept_length (silent : Bool) (outcome : Evaluation.Outcome) :
    (kept silent outcome).length ≤ 1 := by
  unfold kept
  split
  · exact Nat.zero_le 1
  · exact Nat.zero_le 1
  · cases silent
    · exact Nat.le_refl 1
    · exact Nat.zero_le 1

theorem showAll_state {values : List Value} (few : values.length ≤ 1) :
    (session.showAll values).state = { session with results := [] } := by
  cases values with
  | nil => rfl
  | cons value rest =>
      obtain rfl : rest = [] := List.length_eq_zero_iff.mp (Nat.le_zero.mp (Nat.le_of_succ_le_succ few))
      unfold showAll
      split <;> rfl

theorem ofLine_showAll {values : List Value} {fault : Fault}
    (faulted : (session.showAll values).answer = .error fault) : fault.OfLine := by
  induction values with
  | nil => cases faulted
  | cons value rest ih =>
      unfold showAll at faulted
      split at faulted
      · exact ih faulted
      · rename_i met unshown
        cases faulted
        exact Fault.ofLine_inspect unshown

/-- A session in which nothing waits to be run or shown, and whose reporter ends nothing. -/
structure Idle (session : Session) : Prop where
  queue : session.queue = []
  results : session.results = []
  quiet : session.reporter.fatal = false
  usable : ∃ limit, session.limit = .ok limit

theorem Idle.perform_eq (idle : session.Idle) {limit : Option Int}
    (usable : session.limit = .ok limit) (line : Option Int) (program : Node) :
    session.perform (line, program) =
      Effect.andThen
        ⟨session.advance limit program [],
          reported session.reporter line (session.outcome limit program),
          (session.outcome limit program).result.map fun _ => ()⟩
        fun session _ => session.showResults := by
  have alone :=
    @runAll_single (session.load (line, program)) limit usable idle.quiet line program
  rw [Session.perform, run, load_queue idle.queue, alone]
  rfl

theorem Idle.perform (idle : session.Idle) (line : Option Int) (program : Node) :
    (session.perform (line, program)).state.Idle ∧
      ∀ fault, (session.perform (line, program)).answer = .error fault → fault.OfLine := by
  obtain ⟨limit, usable⟩ := idle.usable
  rw [idle.perform_eq usable]
  rcases result : (session.outcome limit program).result with fault | value
  · have results : (session.advance limit program []).results = [] := by
      rw [advance, kept, result, List.append_nil]
      exact idle.results
    refine ⟨⟨rfl, results, idle.quiet, limit, usable⟩, ?_⟩
    rintro fault' ⟨⟩
    rw [Evaluation.fault_of_evaluate result]
    exact .unwritableInteger
  · have few : (session.advance limit program []).results.length ≤ 1 := by
      rw [advance, idle.results, List.nil_append]
      exact kept_length _ _
    constructor
    · change Idle ((session.advance limit program []).showAll _).state
      rw [showAll_state few]
      exact ⟨rfl, rfl, idle.quiet, limit, usable⟩
    · intro fault faulted
      exact ofLine_showAll faulted

theorem idle_start (path : Option String) (limit : Option Int) :
    (Session.start ⟨false, path⟩ (.ok limit)).Idle :=
  ⟨rfl, rfl, rfl, limit, rfl⟩

end Session

namespace Shell

open Session (closes joinLine joined opens)

/-- A text that waits for more: brackets are open in it, by count, and it does not end in a blank. -/
def Unfinished (text : List Char) : Prop :=
  text.countP closes < text.countP opens ∧ ∀ c ∈ text.getLast?, ¬isBlank c

/-- A shell between lines. -/
structure Settled (shell : Shell) : Prop where
  idle : shell.session.Idle
  pending : shell.pending = "" ∧ shell.prompt = .ready ∨
    Unfinished shell.pending.toList ∧ shell.prompt = .more

/-- What a line leads to: a settled shell, and one fault at most. -/
structure Harmless {α : Type} (effect : Effect Shell α) : Prop where
  settled : effect.state.Settled
  faults : ∀ fault, effect.answer = .error fault → fault = .unwritableInteger

variable {shell : Shell}

theorem unfinished_joinLine {line before : String} (more : (joinLine line before).2 = true) :
    Unfinished (joinLine line before).1.toList := by
  rw [Session.joinLine_eq] at more ⊢
  rw [String.toList_ofList]
  exact ⟨of_decide_eq_true more, Text.last_trimRight _⟩

theorem harmless_done {α : Type} (settled : shell.Settled) (answer : α) :
    Harmless (.done shell answer) :=
  ⟨settled, nofun⟩

theorem Harmless.print {α : Type} {effect : Effect Shell α} (harmless : Harmless effect)
    (text : String) : Harmless (effect.print text) :=
  ⟨harmless.settled, harmless.faults⟩

theorem Harmless.andThen {α β : Type} {effect : Effect Shell α} (harmless : Harmless effect)
    {next : Shell → α → Effect Shell β}
    (later : ∀ shell answer, shell.Settled → Harmless (next shell answer)) :
    Harmless (effect.andThen next) := by
  unfold Effect.andThen
  split
  · exact (later _ _ harmless.settled).print _
  · rename_i fault faulted
    exact ⟨harmless.settled, by rintro fault' ⟨⟩; exact harmless.faults fault faulted⟩

theorem harmless_submit (idle : shell.session.Idle) (fresh : shell.pending = "")
    (ready : shell.prompt = .ready) (source : String) :
    Harmless (shell.session.reporter.guard (shell.submit source)) := by
  have submitted : (shell.submit source).state.Settled ∧
      ∀ fault, (shell.submit source).answer = .error fault → fault.OfLine := by
    cases clean : (Parsed.ofText source).mistakes.isEmpty with
    | false =>
        rw [submit_rejected clean]
        refine ⟨⟨idle, .inl ⟨fresh, ready⟩⟩, ?_⟩
        rintro fault ⟨⟩
        exact .problem _
    | true =>
        rw [submit_accepted clean]
        obtain ⟨settled, expected⟩ :=
          idle.perform (some shell.lineNumber) (Parsed.ofText source).program
        exact ⟨⟨settled, .inl ⟨fresh, ready⟩⟩, expected⟩
  constructor
  · rw [guard_state]
    exact submitted.1
  · intro fault through
    exact Reporter.guard_answer idle.quiet submitted.2 through

theorem Settled.enter (settled : shell.Settled) (line : String) : Harmless (shell.enter line) := by
  cases more : (joinLine line shell.pending).2 with
  | true =>
      rw [enter_waits more]
      refine harmless_done ?_ ()
      exact ⟨settled.idle, .inr ⟨unfinished_joinLine more, rfl⟩⟩
  | false =>
      rw [enter_whole more, conclude]
      have renewed : shell.renewed.Settled := ⟨settled.idle, .inl ⟨rfl, rfl⟩⟩
      split
      · exact harmless_done renewed ()
      · exact harmless_submit renewed.idle rfl rfl _

theorem Settled.leave (settled : shell.Settled) (argument : String) :
    Harmless (shell.leave argument) := by
  unfold Shell.leave
  split
  · exact harmless_done settled true
  · exact (harmless_done settled true).print _

theorem Settled.turn (settled : shell.Settled) (line : String) : Harmless (shell.turn line) := by
  have entered (line : String) :
      Harmless ((shell.enter line).andThen fun shell _ => .done shell false) :=
    (settled.enter line).andThen fun _ _ settled => harmless_done settled false
  unfold Shell.turn
  split
  · split
    · exact harmless_done settled false
    · exact entered ""
  · exact entered _
  · exact (harmless_done settled false).print _
  · exact settled.leave _
  · exact (settled.leave _).print _

/-- How a line gets to a shell: as one that may be a command, or as input in any case. -/
inductive Delivery where
  | command (line : String)
  | input (line : String)

def deliver (shell : Shell) : Delivery → Effect Shell Unit
  | .command line => (shell.turn line).andThen fun shell _ => .done shell ()
  | .input line => shell.enter line

/-- The shell after some lines, whatever came of them. -/
def receive (shell : Shell) (given : List Delivery) : Shell :=
  given.foldl (fun shell delivery => (shell.deliver delivery).state) shell

theorem Settled.deliver (settled : shell.Settled) (delivery : Delivery) :
    Harmless (shell.deliver delivery) := by
  cases delivery with
  | command line =>
      exact (settled.turn line).andThen fun _ _ settled => harmless_done settled ()
  | input line => exact settled.enter line

theorem Settled.receive (settled : shell.Settled) (given : List Delivery) :
    (shell.receive given).Settled := by
  induction given generalizing shell with
  | nil => exact settled
  | cons delivery rest ih => exact ih (settled.deliver delivery).settled

theorem settled_start (path : Option String) (limit : Option Int) :
    (Shell.start (.start ⟨false, path⟩ (.ok limit))).Settled :=
  ⟨Session.idle_start path limit, .inl ⟨rfl, rfl⟩⟩

/-- Behind every line nothing waits to be run or shown, and either nothing is pending at the first
prompt or what is pending waits for more at the other. The one fault that a line can end in is that of
an integer too long to write. -/
theorem settled_throughout (path : Option String) (limit : Option Int) (given : List Delivery)
    (delivery : Delivery) :
    let shell := (Shell.start (.start ⟨false, path⟩ (.ok limit))).receive given
    let effect := shell.deliver delivery
    effect.state.session.queue = [] ∧ effect.state.session.results = [] ∧
      (effect.state.pending = "" ∧ effect.state.prompt = .ready ∨
        Unfinished effect.state.pending.toList ∧ effect.state.prompt = .more) ∧
      ∀ fault, effect.answer = .error fault → fault = .unwritableInteger := by
  intro shell effect
  have harmless : Harmless effect := ((settled_start path limit).receive given).deliver delivery
  have settled := harmless.settled
  exact ⟨settled.idle.queue, settled.idle.results, settled.pending, harmless.faults⟩

-- A value that is too long to write is gone with its line.
example :
    let shell := (Shell.start (.start ⟨false, none⟩ (.ok none))).receive
      [.input "let s = fn(x) \x7b x * x \x7d"]
    let effect := shell.deliver (.command "s(s(s(s(s(s(s(s(s(10000000000000000)))))))))")
    effect.answer.toOption = none ∧ effect.state.session.results.length = 0 := by
  decide +kernel

end Shell

end MonkeyLang
