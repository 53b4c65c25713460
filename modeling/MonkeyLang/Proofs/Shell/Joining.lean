import Mathlib.Data.List.Infix
import MonkeyLang.Proofs.Session.Running
import MonkeyLang.Proofs.Session.Unnumbered
import MonkeyLang.Proofs.Token.Joined

/-!
Input in several lines. What a shell joins of the lines is not the text that they make: the blanks at
the end of each are gone. But it has the same tokens and leaves the same brackets open (`Alike`), so the
same comes of it (`enterAll_joined`).
-/

namespace MonkeyLang

theorem Effect.andThen_done {σ : Type} (effect : Effect σ Unit) :
    (effect.andThen fun state _ => .done state ()) = effect := by
  obtain ⟨state, printed, answer⟩ := effect
  cases answer with
  | error fault => rfl
  | ok _ => exact congrArg (Effect.mk state · (.ok ())) String.append_empty

namespace Text

open Session (closes isOpen opens)
open Token (isLayout scan)

/-- The blanks at the end of a text are such as a program may be laid out with. -/
def LaidOut (text : List Char) : Prop := ∀ c ∈ text.reverse.takeWhile isBlank, isLayout c

instance (text : List Char) : Decidable (LaidOut text) :=
  List.decidableBAll (fun c => isLayout c) (text.reverse.takeWhile isBlank)

/-- Texts that make no difference to a shell. -/
structure Alike (text text' : List Char) : Prop where
  tokens : scan text = scan text'
  opened : text.countP opens = text'.countP opens
  closed : text.countP closes = text'.countP closes
  blank : text.all isBlank = text'.all isBlank

theorem laidOut_nil : LaidOut [] := nofun

theorem laidOut_trimRight (text : List Char) : LaidOut (trimRight text) := by
  have last := last_trimRight text
  rw [← List.head?_reverse] at last
  unfold LaidOut
  cases shape : (trimRight text).reverse with
  | nil => exact List.forall_mem_nil _
  | cons c rest =>
      rw [shape] at last
      rw [List.takeWhile_cons_of_neg (last c rfl)]
      exact List.forall_mem_nil _

section

variable {text text' text'' line : List Char}

theorem LaidOut.append_line (laid : LaidOut text) (laid' : LaidOut line) :
    LaidOut (text ++ '\n' :: line) := by
  have shape : (text ++ '\n' :: line).reverse = line.reverse ++ '\n' :: text.reverse := by simp
  intro c member
  rw [shape, List.takeWhile_append] at member
  split at member
  · rename_i whole
    rw [List.takeWhile_cons_of_pos (by decide)] at member
    rcases List.mem_append.mp member with inside | behind
    · apply laid'
      rwa [(List.takeWhile_prefix isBlank).eq_of_length whole]
    · rcases List.mem_cons.mp behind with rfl | before
      · decide
      · exact laid c before
  · exact laid' c member

theorem LaidOut.of_cons {c : Char} (laid : LaidOut (c :: text)) : LaidOut text := by
  intro d member
  apply laid
  rw [List.reverse_cons, List.takeWhile_append]
  split
  · exact List.mem_append_left _ ((List.takeWhile_prefix isBlank).subset member)
  · exact member

theorem alike_refl (text : List Char) : Alike text text := ⟨rfl, rfl, rfl, rfl⟩

theorem Alike.symm (alike : Alike text text') : Alike text' text :=
  ⟨alike.tokens.symm, alike.opened.symm, alike.closed.symm, alike.blank.symm⟩

theorem Alike.trans (alike : Alike text text') (alike' : Alike text' text'') : Alike text text'' :=
  ⟨alike.tokens.trans alike'.tokens, alike.opened.trans alike'.opened,
    alike.closed.trans alike'.closed, alike.blank.trans alike'.blank⟩

theorem Alike.isOpen_eq (alike : Alike text text') : isOpen text = isOpen text' := by
  rw [isOpen, isOpen, alike.opened, alike.closed]

theorem alike_newline (text : List Char) : Alike ('\n' :: text) text where
  tokens := Token.scan_layout (by decide) text
  opened := List.countP_cons_of_neg (by decide)
  closed := List.countP_cons_of_neg (by decide)
  blank := rfl

theorem edge_newline (line : List Char) : Token.Edge ('\n' :: line) :=
  Token.edge_cons (by decide) line

theorem Alike.append_line (alike : Alike text text') (line : List Char) :
    Alike (text ++ '\n' :: line) (text' ++ '\n' :: line) where
  tokens := by
    rw [Token.scan_edge (edge_newline line), Token.scan_edge (edge_newline line), alike.tokens]
  opened := by rw [List.countP_append, List.countP_append, alike.opened]
  closed := by rw [List.countP_append, List.countP_append, alike.closed]
  blank := by rw [List.all_append, List.all_append, alike.blank]

/-- Layout at the end of a text makes no difference. -/
theorem alike_append {layout : List Char} (layouts : ∀ c ∈ layout, isLayout c)
    (blanks : ∀ c ∈ layout, isBlank c) (text : List Char) : Alike text (text ++ layout) := by
  have plain : ∀ c ∈ layout, Plain c := fun c member =>
    plain_of_apart (by decide) (blanks c member)
  constructor
  · rw [Token.scan_edge (Token.edge_layouts layouts), Token.scan_layouts layouts, List.append_nil]
  · rw [List.countP_append, List.countP_eq_zero.mpr fun c member => (plain c member).1,
      Nat.add_zero]
  · rw [List.countP_append, List.countP_eq_zero.mpr fun c member => (plain c member).2,
      Nat.add_zero]
  · rw [List.all_append, List.all_eq_true.mpr blanks, Bool.and_true]

theorem alike_trimRight (laid : LaidOut text) : Alike (trimRight text) text := by
  have layouts : ∀ c ∈ (text.reverse.takeWhile isBlank).reverse, isLayout c := fun c member =>
    laid c (List.mem_reverse.mp member)
  have blanks : ∀ c ∈ (text.reverse.takeWhile isBlank).reverse, isBlank c := fun c member =>
    List.mem_takeWhile_imp (List.mem_reverse.mp member)
  have alike := alike_append layouts blanks (trimRight text)
  rw [trimRight_append] at alike
  exact alike

theorem trimRight_eq_nil : trimRight text = [] ↔ text.all isBlank := by
  rw [trimRight, List.reverse_eq_nil_iff, List.dropWhile_eq_nil_iff, List.all_eq_true]
  simp only [List.mem_reverse]

end

end Text

open Text (Alike LaidOut trimRight)

namespace Session

theorem alike_joined (line before : String) :
    Alike (joined line before) (before.toList ++ '\n' :: line.toList) := by
  unfold joined
  split
  · rename_i empty
    rw [empty]
    exact (Text.alike_newline line.toList).symm
  · exact Text.alike_refl _

theorem laidOut_joined {line before : String} (laid : LaidOut line.toList)
    (laid' : LaidOut before.toList) : LaidOut (joined line before) := by
  unfold joined
  split
  · exact laid
  · exact laid'.append_line laid

variable {session : Session}

theorem runAll_single_queue (entry : Option Int × Node) :
    (session.runAll [entry]).state.queue = [] := by
  obtain ⟨line, program⟩ := entry
  unfold runAll
  split
  · rfl
  · dsimp only
    split
    · rfl
    · unfold Reporter.report Effect.andThen
      cases session.reporter.fatal <;> rfl
    · split <;> rfl

theorem showAll_queue (values : List Value) :
    (session.showAll values).state.queue = session.queue := by
  induction values with
  | nil => rfl
  | cons value rest ih =>
      unfold showAll
      split
      · exact ih
      · rfl

theorem perform_queue (empty : session.queue = []) (entry : Option Int × Node) :
    (session.perform entry).state.queue = [] := by
  have ran : (session.load entry).run.state.queue = [] := by
    rw [run, load_queue empty]
    exact runAll_single_queue entry
  unfold perform Effect.andThen
  split
  · exact (showAll_queue _).trans ran
  · exact ran

end Session

namespace Shell

open Session (isOpen joinLine joined)

/-- Lines entered one after the other, up to a fault. -/
def enterAll (shell : Shell) : List String → Effect Shell Unit
  | [] => .done shell ()
  | line :: rest => (shell.enter line).andThen fun shell _ => enterAll shell rest

/-- A shell that keeps what matters of a text. -/
structure Keeps (shell : Shell) (text : List Char) : Prop where
  alike : Alike shell.pending.toList text
  laid : LaidOut shell.pending.toList

variable {shell shell' : Shell} {text text' : List Char} {line : String} {lines : List String}

theorem keeps_nil (fresh : shell.pending = "") : shell.Keeps [] := by
  constructor
  · rw [fresh]
    exact Text.alike_refl []
  · rw [fresh]
    exact Text.laidOut_nil

/-- A line behind what is kept, with the blanks at its end. -/
theorem Keeps.joined (keeps : shell.Keeps text) (laid : LaidOut line.toList) :
    Alike (joined line shell.pending) (text ++ '\n' :: line.toList) ∧
      LaidOut (joined line shell.pending) :=
  ⟨(Session.alike_joined line shell.pending).trans (keeps.alike.append_line line.toList),
    Session.laidOut_joined laid keeps.laid⟩

theorem Keeps.more_eq (keeps : shell.Keeps text) (laid : LaidOut line.toList) :
    (joinLine line shell.pending).2 = isOpen (text ++ '\n' :: line.toList) := by
  obtain ⟨alike, laid'⟩ := keeps.joined laid
  rw [Session.joinLine_eq]
  exact ((Text.alike_trimRight laid').trans alike).isOpen_eq

/-- The shell behind a line that leaves brackets open. -/
def waiting (shell : Shell) (line : String) : Shell :=
  ⟨shell.session, (joinLine line shell.pending).1, .more, shell.lineNumber + 1⟩

theorem Keeps.waiting (keeps : shell.Keeps text) (laid : LaidOut line.toList) :
    (shell.waiting line).Keeps (text ++ '\n' :: line.toList) := by
  obtain ⟨alike, laid'⟩ := keeps.joined laid
  have pending : (shell.waiting line).pending.toList = trimRight (Session.joined line shell.pending) :=
    String.toList_ofList
  constructor
  · rw [pending]
    exact (Text.alike_trimRight laid').trans alike
  · rw [pending]
    exact Text.laidOut_trimRight _

theorem fed_singleton (line : String) : fed [line] = '\n' :: line.toList := by
  rw [fed_cons, fed, List.flatMap_nil, List.append_nil]

/-- What lines come to of which only the last leaves no bracket open. -/
theorem Keeps.enterAll (keeps : shell.Keeps text) (laid : ∀ line ∈ lines, LaidOut line.toList)
    (begun : lines ≠ [])
    (opened : ∀ front, front <+: lines → front ≠ [] → front ≠ lines → isOpen (text ++ fed front))
    (closed : isOpen (text ++ fed lines) = false) :
    ∃ number whole, Alike whole (text ++ fed lines) ∧ LaidOut whole ∧
      shell.enterAll lines =
        Shell.conclude ⟨shell.session, "", .ready, number⟩ (String.ofList (trimRight whole)) := by
  -- On the lines that are left, behind any text: a line before the last only adds to what is kept.
  induction lines generalizing shell text with
  | nil => exact absurd rfl begun
  | cons line rest ih =>
      obtain ⟨laid_line, laid_rest⟩ := List.forall_mem_cons.mp laid
      have more := keeps.more_eq laid_line
      by_cases last : rest = []
      · subst last
        obtain ⟨alike, laid'⟩ := keeps.joined laid_line
        rw [fed_singleton] at closed ⊢
        refine ⟨shell.lineNumber + 1, Session.joined line shell.pending, alike, laid', ?_⟩
        rw [Shell.enterAll, enter_whole (more.trans closed)]
        exact Effect.andThen_done _
      · have shape (front : List String) :
            text ++ '\n' :: line.toList ++ fed front = text ++ fed (line :: front) := by
          rw [fed_cons, List.append_assoc]
        have first : isOpen (text ++ fed [line]) := by
          apply opened [line] (List.prefix_append [line] rest) (List.cons_ne_nil line [])
          intro whole
          exact last (List.cons.inj whole).2.symm
        rw [fed_singleton, ← more] at first
        have opened' : ∀ front, front <+: rest → front ≠ [] → front ≠ rest →
            isOpen (text ++ '\n' :: line.toList ++ fed front) := by
          intro front within nonempty proper
          rw [shape]
          apply opened (line :: front) ((List.prefix_cons_inj line).mpr within)
            (List.cons_ne_nil line front)
          intro whole
          exact proper (List.cons.inj whole).2
        rw [← shape] at closed ⊢
        obtain ⟨number, whole, alike, laid', entered⟩ :=
          ih (keeps.waiting laid_line) laid_rest last opened' closed
        refine ⟨number, whole, alike, laid', ?_⟩
        rw [Shell.enterAll, enter_waits first]
        exact (Effect.print_empty _).trans entered

theorem enter_queue (empty : shell.session.queue = []) (line : String) :
    (shell.enter line).state.session.queue = [] := by
  cases more : (joinLine line shell.pending).2 with
  | true =>
      rw [enter_waits more]
      exact empty
  | false =>
      rw [enter_whole more, conclude]
      split
      · exact empty
      · rw [guard_state]
        cases clean : (Parsed.ofText (joinLine line shell.pending).1).mistakes.isEmpty with
        | false =>
            rw [submit_rejected clean]
            exact empty
        | true =>
            rw [submit_accepted clean]
            exact Session.perform_queue empty _

/-- Inputs that are alike come to the same, up to the numbers of lines. -/
theorem conclude_unnumbered (same : shell.unnumbered = shell'.unnumbered)
    (pathless : shell.session.reporter.path = none) (alike : Alike text text')
    (laid : LaidOut text) (laid' : LaidOut text') :
    (shell.conclude (.ofList (trimRight text))).within unnumbered =
      (shell'.conclude (.ofList (trimRight text'))).within unnumbered := by
  have trimmed : Alike (trimRight text) (trimRight text') :=
    (Text.alike_trimRight laid).trans (alike.trans (Text.alike_trimRight laid').symm)
  have empty (text : List Char) : String.ofList (trimRight text) = "" ↔ text.all Text.isBlank := by
    rw [String.ofList_eq_empty_iff, Text.trimRight_eq_nil]
  unfold conclude
  by_cases blank : text.all Text.isBlank
  · rw [if_pos ((empty text).mpr blank), if_pos ((empty text').mpr (alike.blank ▸ blank))]
    exact congrArg (Effect.done · ()) same
  · rw [if_neg (mt (empty text).mp blank), if_neg (mt (empty text').mp (alike.blank ▸ blank))]
    apply submit_unnumbered same pathless
    rw [String.toList_ofList, String.toList_ofList]
    exact trimmed.tokens

theorem laidOut_fed (laid : ∀ line ∈ lines, LaidOut line.toList) (laid' : LaidOut text) :
    LaidOut (text ++ fed lines) := by
  induction lines generalizing text with
  | nil =>
      rw [fed, List.flatMap_nil, List.append_nil]
      exact laid'
  | cons line rest ih =>
      obtain ⟨first, others⟩ := List.forall_mem_cons.mp laid
      rw [fed_cons, ← List.append_assoc]
      exact ih others (laid'.append_line first)

/-- The text that lines make, but for a newline before it. -/
theorem alike_intercalate (begun : lines ≠ []) :
    Alike (fed lines) ("\n".intercalate lines).toList := by
  obtain ⟨line, rest, rfl⟩ := List.exists_cons_of_ne_nil begun
  rw [fed_eq]
  exact Text.alike_newline _

theorem laidOut_intercalate (laid : ∀ line ∈ lines, LaidOut line.toList) :
    LaidOut ("\n".intercalate lines).toList := by
  cases lines with
  | nil => exact Text.laidOut_nil
  | cons line rest =>
      have behind := laidOut_fed laid Text.laidOut_nil
      rw [List.nil_append, fed_eq] at behind
      exact behind.of_cons

theorem enter_closed (fresh : shell.pending = "") (laid : LaidOut line.toList)
    (closed : isOpen line.toList = false) :
    shell.enter line = shell.renewed.conclude (.ofList (trimRight line.toList)) := by
  have whole : joined line shell.pending = line.toList := if_pos fresh
  have ends : (joinLine line shell.pending).2 = false := by
    rw [Session.joinLine_eq, whole]
    exact (Text.alike_trimRight laid).isOpen_eq.trans closed
  rw [enter_whole ends, Session.joinLine_eq, whole]

/-- Lines of which each but the last leaves brackets open come to the same whether they are entered one
by one or all at once. Only the numbers of the lines differ. -/
theorem enterAll_joined (shell : Shell) (fresh : shell.pending = "")
    (pathless : shell.session.reporter.path = none) (lines : List String)
    (ready : lines ≠ [] ∨ shell.prompt = .ready) (laid : ∀ line ∈ lines, LaidOut line.toList)
    (opened : ∀ front, front <+: lines → front ≠ [] → front ≠ lines →
      isOpen ("\n".intercalate front).toList)
    (closed : isOpen ("\n".intercalate lines).toList = false) :
    (shell.enterAll lines).within unnumbered =
        (shell.enter ("\n".intercalate lines)).within unnumbered ∧
      (shell.session.queue = [] →
        (shell.enterAll lines).state.session.queue =
          (shell.enter ("\n".intercalate lines)).state.session.queue) := by
  have laid_all := laidOut_intercalate laid
  have same : (shell.enterAll lines).within unnumbered =
      (shell.enter ("\n".intercalate lines)).within unnumbered := by
    rw [enter_closed fresh laid_all closed]
    by_cases begun : lines = []
    · have prompt := ready.resolve_left (not_not_intro begun)
      subst begun
      have renewed : shell.unnumbered = shell.renewed.unnumbered := by
        unfold unnumbered Shell.renewed
        rw [fresh, prompt]
      exact congrArg (Effect.done · ()) renewed
    · have opened' : ∀ front, front <+: lines → front ≠ [] → front ≠ lines →
          isOpen ([] ++ fed front) := by
        intro front within nonempty proper
        rw [List.nil_append, (alike_intercalate nonempty).isOpen_eq]
        exact opened front within nonempty proper
      have closed' : isOpen ([] ++ fed lines) = false := by
        rw [List.nil_append, (alike_intercalate begun).isOpen_eq]
        exact closed
      obtain ⟨number, whole, alike, laid_whole, entered⟩ :=
        (keeps_nil fresh).enterAll laid begun opened' closed'
      rw [entered]
      exact conclude_unnumbered rfl pathless (alike.trans (alike_intercalate begun)) laid_whole laid_all
  refine ⟨same, fun empty => ?_⟩
  have queue := enter_queue empty ("\n".intercalate lines)
  have forgotten := congrArg (fun effect => effect.state.session.queue) same
  change (shell.enterAll lines).state.session.queue.map _ =
    (shell.enter ("\n".intercalate lines)).state.session.queue.map _ at forgotten
  rw [queue, List.map_nil, List.map_eq_nil_iff] at forgotten
  rw [forgotten, queue]

/-- A function with blank ends of lines and an empty line in it. -/
theorem enterAll_joined_function :
    let shell := Shell.start (.start ⟨false, none⟩ (.ok none))
    let lines := ["let f = fn(x) \x7b \t", "", "  x + (", "1) \x7d; f(2)  "]
    shell.pending = "" ∧ shell.session.reporter.path = none ∧ lines ≠ [] ∧
      (∀ line ∈ lines, LaidOut line.toList) ∧
      (∀ front, front <+: lines → front ≠ [] → front ≠ lines →
        isOpen ("\n".intercalate front).toList) ∧
      isOpen ("\n".intercalate lines).toList = false ∧
      (shell.enterAll lines).within unnumbered =
        (shell.enter ("\n".intercalate lines)).within unnumbered := by
  intro shell lines
  have laid : ∀ line ∈ lines, LaidOut line.toList := by decide +kernel
  have opened : ∀ front, front <+: lines → front ≠ [] → front ≠ lines →
      isOpen ("\n".intercalate front).toList := by
    have listed : ∀ front ∈ lines.inits, front ≠ [] → front ≠ lines →
        isOpen ("\n".intercalate front).toList := by
      decide +kernel
    intro front within
    exact listed front ((List.mem_inits front lines).mpr within)
  have closed : isOpen ("\n".intercalate lines).toList = false := by decide +kernel
  have same := (enterAll_joined shell rfl rfl lines (.inl nofun) laid opened closed).1
  exact ⟨rfl, rfl, nofun, laid, opened, closed, same⟩

end Shell

end MonkeyLang
