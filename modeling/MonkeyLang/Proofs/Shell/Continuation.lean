import MonkeyLang.Proofs.Grammar.Bracketing
import MonkeyLang.Shell

/-!
Programs given to the shell line by line. The pending input has the same brackets open as all the lines
so far, so that what the shell waits for by counting is what the grammar asks for
(`accepted_bracketed`).
-/

namespace MonkeyLang

open Text (Bracketed Nested trimRight unclosed)

namespace Session

/-- A line behind the unfinished input before it. -/
def joined (line before : String) : List Char :=
  if before = "" then line.toList else before.toList ++ '\n' :: line.toList

theorem joinLine_eq (line before : String) :
    joinLine line before =
      (String.ofList (trimRight (joined line before)), isOpen (trimRight (joined line before))) :=
  rfl

theorem unclosed_newline (awaited rest : List Char) :
    unclosed awaited ('\n' :: rest) = unclosed awaited rest := by
  rw [Text.unclosed_cons, Text.meet_plain (by decide)]
  rfl

/-- To the brackets it makes no difference that nothing is pending. -/
theorem unclosed_joined (line before : String) :
    unclosed [] (joined line before) = unclosed [] (before.toList ++ '\n' :: line.toList) := by
  unfold joined
  split
  · rename_i empty
    rw [empty]
    exact (unclosed_newline [] line.toList).symm
  · rfl

/-- The session with a program behind those that wait. -/
def load (session : Session) (entry : Option Int × Node) : Session :=
  { session with queue := session.queue ++ [entry] }

theorem load_queue {session : Session} (empty : session.queue = []) (entry : Option Int × Node) :
    (session.load entry).queue = [entry] := by
  rw [load, empty, List.nil_append]

/-- Runs what waits and a program behind it, and prints all results. -/
def perform (session : Session) (entry : Option Int × Node) : Effect Session Unit :=
  (session.load entry).run.andThen fun session _ => session.showResults

end Session

namespace Shell

open Session (closes joinLine joined opens)

/-- The shell after some lines, whatever came of them. -/
def feed (shell : Shell) (lines : List String) : Shell :=
  lines.foldl (fun shell line => (shell.enter line).state) shell

/-- The text of some lines, each behind a newline. -/
def fed (lines : List String) : List Char := lines.flatMap fun line => '\n' :: line.toList

theorem fed_cons (line : String) (lines : List String) :
    fed (line :: lines) = '\n' :: line.toList ++ fed lines :=
  List.flatMap_cons

theorem fed_append (lines lines' : List String) : fed (lines ++ lines') = fed lines ++ fed lines' :=
  List.flatMap_append

theorem fed_eq (line : String) (lines : List String) :
    fed (line :: lines) = '\n' :: ("\n".intercalate (line :: lines)).toList := by
  induction lines generalizing line with
  | nil => rw [fed_cons, String.intercalate_singleton, fed, List.flatMap_nil, List.append_nil]
  | cons next others ih =>
      rw [fed_cons, ih, String.intercalate_cons_cons]
      simp

theorem unclosed_fed (lines : List String) :
    unclosed [] (fed lines) = unclosed [] ("\n".intercalate lines).toList := by
  cases lines with
  | nil => rfl
  | cons line others => rw [fed_eq, Session.unclosed_newline]

variable {shell : Shell}

theorem guard_state {σ : Type} (reporter : Reporter) (action : Effect σ Unit) :
    (reporter.guard action).state = action.state := by
  unfold Reporter.guard
  split
  · rfl
  · rename_i fault _
    cases fault <;> simp only [Reporter.settle, Reporter.report, Effect.print, Effect.andThen] <;>
      split <;> rfl

/-- The shell with another session in it. -/
def around (shell : Shell) (session : Session) : Shell := { shell with session := session }

theorem submit_rejected {source : String}
    (mistaken : (Parsed.ofText source).mistakes.isEmpty = false) :
    shell.submit source =
      ⟨shell, "", .error (.problem (.rejected (Parsed.ofText source).messages source))⟩ := by
  simp only [submit, Session.add, readProgram, mistaken]
  rfl

theorem submit_accepted {source : String}
    (clean : (Parsed.ofText source).mistakes.isEmpty = true) :
    shell.submit source =
      (shell.session.perform (some shell.lineNumber, (Parsed.ofText source).program)).within
        shell.around := by
  simp only [submit, Session.add, readProgram, clean]
  rfl

theorem submit_pending (source : String) : (shell.submit source).state.pending = shell.pending := by
  unfold submit
  split <;> rfl

theorem enter_waits {line : String} (more : (joinLine line shell.pending).2 = true) :
    shell.enter line =
      .done ⟨shell.session, (joinLine line shell.pending).1, .more, shell.lineNumber + 1⟩ () :=
  if_pos more

/-- The shell behind a line that ends the input. -/
def renewed (shell : Shell) : Shell := ⟨shell.session, "", .ready, shell.lineNumber + 1⟩

/-- Interprets an input, if there is anything in it. -/
def conclude (shell : Shell) (source : String) : Effect Shell Unit :=
  if source = "" then .done shell ()
  else shell.session.reporter.guard (shell.submit source)

theorem enter_whole {line : String} (whole : (joinLine line shell.pending).2 = false) :
    shell.enter line = shell.renewed.conclude (joinLine line shell.pending).1 :=
  if_neg (Bool.eq_false_iff.mp whole)

theorem enter_settles {line : String} (whole : (joinLine line shell.pending).2 = false) :
    (shell.enter line).state.pending = "" := by
  rw [enter_whole whole, conclude]
  split
  · rfl
  · rw [guard_state, submit_pending]
    rfl

/-- A shell behind a text: what is pending has the same brackets open, and nothing is pending where
none are. -/
structure Follows (shell : Shell) (front : List Char) : Prop where
  unclosed : unclosed [] shell.pending.toList = unclosed [] front
  settled : Bracketed front → shell.pending = ""

theorem follows_nil (fresh : shell.pending = "") : shell.Follows [] where
  unclosed := by rw [fresh]; rfl
  settled := fun _ => fresh

variable {front left : List Char} {line : String}

/-- The brackets that are open behind a line are those of the line joined to what is pending. -/
theorem Follows.joined (follows : shell.Follows front) :
    Text.unclosed [] (joined line shell.pending) =
      Text.unclosed [] (front ++ '\n' :: line.toList) := by
  rw [Session.unclosed_joined, Text.unclosed_append, Text.unclosed_append, follows.unclosed]

theorem Follows.more (follows : shell.Follows front)
    (met : Text.unclosed [] (front ++ '\n' :: line.toList) = some left) :
    (joinLine line shell.pending).2 = !left.isEmpty := by
  rw [Session.joinLine_eq]
  apply Text.isOpen_of_unclosed
  rw [Text.unclosed_trimRight, follows.joined, met]

theorem Follows.enter (follows : shell.Follows front)
    (met : Text.unclosed [] (front ++ '\n' :: line.toList) = some left) :
    (shell.enter line).state.Follows (front ++ '\n' :: line.toList) := by
  have more := follows.more met
  cases left with
  | nil =>
      have settled : (shell.enter line).state.pending = "" := enter_settles more
      refine ⟨?_, fun _ => settled⟩
      rw [settled, met]
      rfl
  | cons first others =>
      rw [enter_waits more]
      constructor
      · calc
          Text.unclosed [] (joinLine line shell.pending).1.toList =
              Text.unclosed [] (trimRight (Session.joined line shell.pending)) := by
            rw [Session.joinLine_eq, String.toList_ofList]
          _ = Text.unclosed [] (Session.joined line shell.pending) :=
            Text.unclosed_trimRight [] _
          _ = Text.unclosed [] (front ++ '\n' :: line.toList) := follows.joined
      · intro bracketed
        cases met.symm.trans bracketed

theorem Follows.feed {lines : List String} (follows : shell.Follows front)
    (met : Text.unclosed [] (front ++ fed lines) = some left) :
    (shell.feed lines).Follows (front ++ fed lines) := by
  induction lines generalizing shell front with
  | nil =>
      rw [fed, List.flatMap_nil, List.append_nil]
      exact follows
  | cons line lines ih =>
      rw [fed_cons, ← List.append_assoc] at met ⊢
      obtain ⟨between, first, _⟩ := Text.unclosed_front met
      exact ih (follows.enter first) met

/-- How a line is taken behind others: while brackets are open it is kept and nothing else is done,
and where none are, the input is whole and nothing stays pending. -/
structure Taken (shell : Shell) (before : List String) (line : String) : Prop where
  waits : ("\n".intercalate (before ++ [line])).toList.countP closes <
      ("\n".intercalate (before ++ [line])).toList.countP opens →
    (shell.feed before).enter line =
      .done ⟨(shell.feed before).session, (joinLine line (shell.feed before).pending).1, .more,
        (shell.feed before).lineNumber + 1⟩ ()
  settles : ("\n".intercalate (before ++ [line])).toList.countP opens =
      ("\n".intercalate (before ++ [line])).toList.countP closes →
    Bracketed (joined line (shell.feed before).pending) ∧
      (shell.feed (before ++ [line])).pending = ""

theorem feed_append (shell : Shell) (lines : List String) (line : String) :
    shell.feed (lines ++ [line]) = ((shell.feed lines).enter line).state :=
  List.foldl_append

theorem taken_of_bracketed (fresh : shell.pending = "") {before after : List String}
    (bracketed : Bracketed (fed (before ++ line :: after))) : shell.Taken before line := by
  have shape : fed (before ++ line :: after) = fed before ++ '\n' :: line.toList ++ fed after := by
    rw [fed_append, fed_cons, List.append_assoc]
  rw [shape] at bracketed
  obtain ⟨left, met, _⟩ := Text.unclosed_front bracketed
  obtain ⟨between, met', _⟩ := Text.unclosed_front met
  have follows : (shell.feed before).Follows (fed before) := (follows_nil fresh).feed met'
  have more := follows.more met
  have whole : Text.unclosed [] ("\n".intercalate (before ++ [line])).toList = some left := by
    rw [← unclosed_fed, fed_append, fed_cons, fed, fed, List.flatMap_nil, List.append_nil]
    exact met
  have counted := Text.unclosed_counts whole
  rw [List.length_nil] at counted
  cases left with
  | nil =>
      rw [List.length_nil] at counted
      refine ⟨fun opened => by omega, fun _ => ⟨follows.joined.trans met, ?_⟩⟩
      rw [feed_append]
      exact enter_settles more
  | cons first others =>
      rw [List.length_cons] at counted
      exact ⟨fun _ => enter_waits more, fun level => by omega⟩

/-- A source that is read without a mistake is bracketed, so a session asks for no more input behind
it, and a shell that is given its lines reads nothing while brackets are open and keeps nothing
behind the last. -/
theorem accepted_bracketed {depth : Nat} {source : String}
    (accepted : (Grammar.readText depth source).mistakes = []) :
    Nested source.toList ∧
      (∀ line before, joined line before = source.toList → (joinLine line before).2 = false) ∧
      ∀ (shell : Shell) (lines : List String), shell.pending = "" →
        "\n".intercalate lines = source →
          (∀ before line after, lines = before ++ line :: after → shell.Taken before line) ∧
            (shell.feed lines).pending = "" := by
  have bracketed : Bracketed source.toList := Grammar.bracketed_of_accepted accepted
  refine ⟨bracketed.nested, ?_, ?_⟩
  · intro line before same
    have met : Text.unclosed [] (trimRight (joined line before)) = some [] := by
      rw [Text.unclosed_trimRight, same]
      exact bracketed
    exact Text.isOpen_of_unclosed met
  · rintro shell lines fresh rfl
    have whole : Bracketed (fed lines) := (unclosed_fed lines).trans bracketed
    constructor
    · rintro before line after rfl
      exact taken_of_bracketed fresh whole
    · have follows : (shell.feed lines).Follows (fed lines) := (follows_nil fresh).feed whole
      exact follows.settled whole

theorem accepted_bracketed_function :
    (Grammar.readText 9 "let f = fn(x) \x7b\n  x\n\x7d\nf(1)").mistakes = [] ∧
      Nested "let f = fn(x) \x7b\n  x\n\x7d\nf(1)".toList ∧
      ∀ shell : Shell, shell.pending = "" →
        (shell.feed ["let f = fn(x) \x7b", "  x", "\x7d", "f(1)"]).pending = "" := by
  have accepted : (Grammar.readText 9 "let f = fn(x) \x7b\n  x\n\x7d\nf(1)").mistakes = [] := by
    decide +kernel
  obtain ⟨nested, _, fed⟩ := accepted_bracketed accepted
  exact ⟨accepted, nested, fun shell fresh => (fed shell _ fresh rfl).2⟩

end Shell

end MonkeyLang
