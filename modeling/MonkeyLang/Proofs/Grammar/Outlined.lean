import MonkeyLang.Proofs.Grammar.Characters
import MonkeyLang.Proofs.Grammar.Part
import MonkeyLang.Proofs.Node.Outline

/-!
The outlines of programs. No text of a node that was read has a line's end or a quote in it, so that
each place of the walk through a program has a line of its outline to itself (`outline_faithful`).
-/

namespace MonkeyLang

namespace Token

theorem onLine_of_letter {c : Char} (letter : isLetter c) : c ≠ '\n' ∧ c ≠ '\'' := by
  constructor <;> rintro rfl <;> cases letter

theorem onLine_of_digit {c : Char} (digit : isDigit c) : c ≠ '\n' ∧ c ≠ '\'' := by
  constructor <;> rintro rfl <;> cases digit

theorem onLine_of_symbol {c : Char} {kind : Kind} (found : symbolKind? c = some kind) :
    c ≠ '\n' ∧ c ≠ '\'' := by
  constructor <;> rintro rfl <;> cases found

theorem Lexical.onLine {token : Token} (lexical : token.Lexical) (legal : token.kind ≠ .illegal) :
    OnLine token.literal := by
  unfold OnLine
  cases lexical with
  | symbol found =>
      rw [String.toList_ofList, List.forall_mem_singleton]
      exact onLine_of_symbol found
  | pair found =>
      rw [String.toList_ofList, List.forall_mem_cons, List.forall_mem_singleton]
      rcases pairKind?_cases found with ⟨rfl, rfl⟩ | ⟨rfl, rfl⟩ <;> decide
  | word initial others =>
      rw [String.toList_ofList, List.forall_mem_cons]
      exact ⟨onLine_of_letter initial, fun d member => onLine_of_letter (others d member)⟩
  | number initial others =>
      rw [String.toList_ofList, List.forall_mem_cons]
      exact ⟨onLine_of_digit initial, fun d member => onLine_of_digit (others d member)⟩
  | illegal => exact absurd rfl legal

end Token

namespace Grammar

open Token (Legal)

/-- The texts of what a phrase stands for. -/
def Phrase.texts : Phrase → List String
  | .expression _ node | .block node | .statement node => [node.text]
  | .arguments nodes | .furtherArguments nodes | .statements nodes => Node.texts nodes
  | .parameters names | .furtherParameters names => names.map Identifier.name

/-- The literals of tokens can stand on a line. -/
def AllOnLine (tokens : List Token) : Prop := ∀ token ∈ tokens, OnLine token.literal

theorem AllOnLine.of_append {first second : List Token} (plain : AllOnLine (first ++ second)) :
    AllOnLine first ∧ AllOnLine second :=
  List.forall_mem_append.mp plain

theorem AllOnLine.of_cons {token : Token} {rest : List Token} (plain : AllOnLine (token :: rest)) :
    OnLine token.literal ∧ AllOnLine rest :=
  List.forall_mem_cons.mp plain

theorem onLine_blockText {texts : List String} (each : ∀ text ∈ texts, OnLine text) :
    OnLine (Node.blockText texts) := by
  cases texts with
  | nil => decide
  | cons first rest =>
      have joined : OnLine ("; ".intercalate (first :: rest)) := .intercalate (by decide) each
      simp +decide only [Node.blockText, OnLine.append, joined, and_self]

theorem Derives.texts_onLine {tokens : List Token} {phrase : Phrase} (derives : Derives tokens phrase)
    (plain : AllOnLine tokens) : ∀ text ∈ phrase.texts, OnLine text := by
  have the {text : String} (each : ∀ other ∈ [text], OnLine other) : OnLine text :=
    List.forall_mem_singleton.mp each
  induction derives with
  | tighter inner ih => exact ih plain
  | binary operates first second ih ih' =>
      obtain ⟨left, rest⟩ := plain.of_append
      obtain ⟨operator, right⟩ := rest.of_cons
      have left := the (ih left)
      have right := the (ih' right)
      refine List.forall_mem_singleton.mpr ?_
      simp +decide only [Node.text, OnLine.append, operator, left, right, and_self]
  | unary operates operand ih =>
      obtain ⟨operator, rest⟩ := plain.of_cons
      have operand := the (ih rest)
      refine List.forall_mem_singleton.mpr ?_
      simp +decide only [Node.text, OnLine.append, operator, operand, and_self]
  | call opens closes first second ih ih' =>
      obtain ⟨callee, rest⟩ := plain.of_append.1.of_append
      have callee := the (ih callee)
      have each : ∀ text ∈ Node.texts _, OnLine text := ih' rest.of_cons.2
      have given := OnLine.intercalate (show OnLine ", " by decide) each
      refine List.forall_mem_singleton.mpr ?_
      simp +decide only [Node.text, OnLine.append, callee, given, and_self]
  | name | number | affirmation | negation =>
      exact List.forall_mem_singleton.mpr plain.of_cons.1
  | group opens closes inner ih => exact ih plain.of_append.1.of_cons.2
  | conditional starts opens closes tested chosen ih ih' =>
      obtain ⟨front, rest⟩ := plain.of_append
      have condition := the (ih front.of_cons.2.of_cons.2)
      have consequence := the (ih' rest.of_cons.2)
      refine List.forall_mem_singleton.mpr ?_
      simp +decide only [Node.text, OnLine.append, condition, consequence, and_self]
  | alternative starts opens closes divides tested chosen otherwise ih ih' ih'' =>
      obtain ⟨front, last⟩ := plain.of_append
      obtain ⟨front, rest⟩ := front.of_append
      have condition := the (ih front.of_cons.2.of_cons.2)
      have consequence := the (ih' rest.of_cons.2)
      have alternative := the (ih'' last.of_cons.2)
      refine List.forall_mem_singleton.mpr ?_
      rw [Node.text]
      split <;> simp +decide only [OnLine.append, condition, consequence, alternative, and_self]
  | function starts opens closes parameters inner ih ih' =>
      obtain ⟨front, rest⟩ := plain.of_append
      obtain ⟨keyword, front⟩ := front.of_cons
      have named : OnLine (Node.nameList _) := .intercalate (by decide) (ih front.of_cons.2)
      have body := the (ih' rest.of_cons.2)
      refine List.forall_mem_singleton.mpr ?_
      simp +decide only [Node.text, OnLine.append, keyword, named, body, and_self]
  | noArguments | lastArgument | noParameters | lastParameter | noStatements =>
      exact List.forall_mem_nil _
  | arguments initial further ih ih' =>
      obtain ⟨first, others⟩ := plain.of_append
      exact List.forall_mem_cons.mpr ⟨the (ih first), ih' others⟩
  | furtherArguments divides following further ih ih' =>
      obtain ⟨front, others⟩ := plain.of_append
      exact List.forall_mem_cons.mpr ⟨the (ih front.of_cons.2), ih' others⟩
  | parameters kind further ih =>
      obtain ⟨name, others⟩ := plain.of_cons
      exact List.forall_mem_cons.mpr ⟨name, ih others⟩
  | furtherParameters divides kind further ih =>
      obtain ⟨name, others⟩ := plain.of_cons.2.of_cons
      exact List.forall_mem_cons.mpr ⟨name, ih others⟩
  | block opens closes inner ih =>
      have statements := ih plain.of_append.1.of_cons.2
      exact List.forall_mem_singleton.mpr (onLine_blockText statements)
  | binding starts kind assigns value ih =>
      obtain ⟨keyword, rest⟩ := plain.of_cons
      obtain ⟨target, rest⟩ := rest.of_cons
      have value := the (ih rest.of_cons.2)
      refine List.forall_mem_singleton.mpr ?_
      simp +decide only [Node.text, OnLine.append, keyword, target, value, and_self]
  | returning starts value ih =>
      obtain ⟨keyword, rest⟩ := plain.of_cons
      have value := the (ih rest)
      refine List.forall_mem_singleton.mpr ?_
      simp +decide only [Node.text, OnLine.append, keyword, value, and_self]
  | evaluation value ih => exact ih plain
  | ended ends initial further ih ih' =>
      obtain ⟨first, rest⟩ := plain.of_append
      exact List.forall_mem_cons.mpr ⟨the (ih first), ih' rest.of_cons.2⟩
  | unended separate initial further ih ih' =>
      obtain ⟨first, rest⟩ := plain.of_append
      exact List.forall_mem_cons.mpr ⟨the (ih first), ih' rest⟩

theorem allOnLine_of_legal {tokens : List Token} (scanned : Scanned tokens) (legal : Legal tokens) :
    AllOnLine tokens :=
  fun token member => (scanned token member).onLine (legal token member)

theorem Part.onLine {node : Node} (read : Part node) : OnLine node.text := by
  have only {tokens : List Token} {phrase : Phrase} (scanned : Scanned tokens)
      (derives : Derives tokens phrase) : ∀ text ∈ phrase.texts, OnLine text :=
    derives.texts_onLine (allOnLine_of_legal scanned derives.legal)
  cases read with
  | missing => decide
  | expression scanned derives => exact List.forall_mem_singleton.mp (only scanned derives)
  | block scanned derives => exact List.forall_mem_singleton.mp (only scanned derives)
  | statement scanned derives => exact List.forall_mem_singleton.mp (only scanned derives)

/-- The text of each node of a program that was read can stand on a line. -/
theorem readText_onLine (depth : Nat) (source : String) :
    ∀ entry ∈ (readText depth source).program.preorder 0, OnLine entry.2.text := by
  obtain ⟨nodes, used, shape, derives, scanned, _⟩ := sound_readTokens depth (.scan source.toList)
  have program : (readText depth source).program = .program nodes := shape
  rw [program, Node.preorder_eq, List.forall_mem_cons, List.forall_mem_flatMap]
  constructor
  · have each : ∀ text ∈ Node.texts nodes, OnLine text :=
      derives.texts_onLine (allOnLine_of_legal scanned derives.legal)
    rw [Node.text]
    exact .intercalate (by decide) each
  · intro statement member
    have read : Part statement := derives.parts scanned _ (List.mem_filter.mp member).1
    have inherited : ∀ node, Part node → ∀ child ∈ node.children, Part child :=
      fun node whole child inside => whole.inside (List.mem_filter.mp inside).1
    intro entry within
    exact (Node.preorder_forall inherited statement read 1 entry within).onLine

/-- The outline of a program that was read, if that is not too high, has one line for each place of the
walk through the program, which comes to the nodes in preorder. At a level it has the lines that it has
at level zero, each set in by four blanks for each level more, and from it the shape of the program can
be had back. -/
theorem outline_faithful (depth level : Nat) (source : String)
    (bounded : (readText depth source).program.height ≤ Node.heightLimit) :
    let program := (readText depth source).program
    let walk := program.shape.visits 0 false
    ∃ shown unshifted,
      program.writeOutline level = .ok shown ∧ program.writeOutline 0 = .ok unshifted ∧
      shown.toList.splitOn '\n' = walk.map (fun visit => (visit.line level).toList) ∧
      walk.filterMap Visit.entry? =
        (program.preorder 0).map (fun entry => (entry.1, entry.2.label, entry.2.text)) ∧
      shown.toList.splitOn '\n' =
        (unshifted.toList.splitOn '\n').map (List.replicate (4 * level) ' ' ++ ·) ∧
      Shape.ofText shown.toList = some program.shape := by
  intro program walk
  have legible := Node.legible_of_preorder (readText_onLine depth source)
  have lines := Node.splitOn_outline legible
  refine ⟨program.outline level, program.outline 0, if_pos bounded, if_pos bounded, lines level,
    Node.entries_visits program 0 false, ?_, Node.ofText_outline legible level⟩
  rw [lines level, lines 0, List.map_map]
  refine List.map_congr_left fun visit member => ?_
  change (visit.line level).toList = _ ++ (visit.line 0).toList
  rw [visit.line_eq level, String.toList_append, Visit.blanks, String.toList_ofList]

theorem outline_faithful_conditional :
    ∃ shown, (readText 9 "if (x) \x7b 1 \x7d; 2").program.writeOutline 1 = .ok shown ∧
      shown.toList.splitOn '\n' =
        ["    Program('if (x) \x7b 1 \x7d; 2', nodes=[",
          "        ExpressionStatement('if (x) \x7b 1 \x7d', nodes=[",
          "            IfExpression('if (x) \x7b 1 \x7d', nodes=[",
          "                Identifier('x'),",
          "                BlockStatement('\x7b 1 \x7d', nodes=[",
          "                    ExpressionStatement('1', nodes=[",
          "                        IntegerLiteral('1')",
          "                    ])",
          "                ])",
          "            ])",
          "        ]),",
          "        ExpressionStatement('2', nodes=[",
          "            IntegerLiteral('2')",
          "        ])",
          "    ])"].map String.toList ∧
      Shape.ofText shown.toList = some (readText 9 "if (x) \x7b 1 \x7d; 2").program.shape := by
  obtain ⟨shown, _, writes, _, lines, _, _, shape⟩ :=
    outline_faithful 9 1 "if (x) \x7b 1 \x7d; 2" (by decide +kernel)
  exact ⟨shown, writes, lines.trans (by decide +kernel), shape⟩

end Grammar

end MonkeyLang
